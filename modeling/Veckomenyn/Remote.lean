import Mathlib.Data.List.Basic

/-!
Programs that keep a memory and ask the outside world.

A program locks its memory for a section at a time and asks questions, whose answers it waits
for. Run alone it is a function of the answers, and leaves a log of what was asked while the
memory was how. `wp` takes such a program apart at its binds, for all answers at once.
-/

namespace Veckomenyn.Remote

variable {S Q : Type} {A : Q → Type} {ε ε' α β : Type}

/-- `act` is one locked section of the memory, `send` a question. -/
inductive Proc (S Q : Type) (A : Q → Type) (ε α : Type) : Type 1 where
  | ret (r : Except ε α)
  | act {β : Type} (f : S → β × S) (k : β → Proc S Q A ε α)
  | send (q : Q) (k : A q → Proc S Q A ε α)

/-- A question, asked while the memory was as it says, and its answer. -/
structure Exchange (S Q : Type) (A : Q → Type) where
  mem : S
  query : Q
  answer : A query

structure World (S Q : Type) (A : Q → Type) where
  mem : S
  log : List (Exchange S Q A)

namespace Proc

def bind : Proc S Q A ε α → (α → Proc S Q A ε β) → Proc S Q A ε β
  | ret (.ok a), f => f a
  | ret (.error e), _ => ret (.error e)
  | act g k, f => act g fun b => (k b).bind f
  | send q k, f => send q fun a => (k a).bind f

instance : Monad (Proc S Q A ε) where
  pure a := ret (.ok a)
  bind := bind

lemma bind_assoc {γ : Type} (x : Proc S Q A ε α) (f : α → Proc S Q A ε β)
    (g : β → Proc S Q A ε γ) : x >>= f >>= g = x >>= fun a => f a >>= g := by
  show (x.bind f).bind g = x.bind fun a => (f a).bind g
  induction x with
  | ret r => cases r <;> rfl
  | act h k ih => exact congrArg (act h) (funext ih)
  | send q k ih => exact congrArg (send q) (funext ih)

def fail (e : ε) : Proc S Q A ε α := ret (.error e)

def read (f : S → β) : Proc S Q A ε β := act (fun s => (f s, s)) pure

def modify (f : S → S) : Proc S Q A ε Unit := act (fun s => ((), f s)) pure

def request (q : Q) : Proc S Q A ε (A q) := send q pure

/-- The program goes on from an error. -/
def attempt : Proc S Q A ε α → Proc S Q A ε' (Except ε α)
  | ret r => ret (.ok r)
  | act g k => act g fun b => (k b).attempt
  | send q k => send q fun a => (k a).attempt

def mapError (g : ε → ε') : Proc S Q A ε α → Proc S Q A ε' α
  | ret (.ok a) => ret (.ok a)
  | ret (.error e) => ret (.error (g e))
  | act f k => act f fun b => (k b).mapError g
  | send q k => send q fun a => (k a).mapError g

/-! ### Running alone -/

/-- The answers come in the order of the questions. -/
def run (ans : ℕ → (q : Q) → A q) : Proc S Q A ε α → World S Q A → Except ε α × World S Q A
  | ret r, w => (r, w)
  | act f k, w => (k (f w.mem).1).run ans ⟨(f w.mem).2, w.log⟩
  | send q k, w => (k (ans w.log.length q)).run ans
      ⟨w.mem, w.log ++ [⟨w.mem, q, ans w.log.length q⟩]⟩

variable {ans : ℕ → (q : Q) → A q} {u v : World S Q A}

lemma run_bind (x : Proc S Q A ε α) (f : α → Proc S Q A ε β) (u : World S Q A) :
    (x >>= f).run ans u = match x.run ans u with
      | (.ok a, v) => (f a).run ans v
      | (.error e, v) => (.error e, v) := by
  show (x.bind f).run ans u = _
  induction x generalizing u with
  | ret r => cases r <;> rfl
  | act g k ih => exact ih _ _
  | send q k ih => exact ih _ _

lemma run_bind_ok {x : Proc S Q A ε α} {f : α → Proc S Q A ε β} {a : α}
    (h : x.run ans u = (.ok a, v)) : (x >>= f).run ans u = (f a).run ans v := by
  rw [run_bind, h]

lemma run_bind_error {x : Proc S Q A ε α} {f : α → Proc S Q A ε β} {e : ε}
    (h : x.run ans u = (.error e, v)) : (x >>= f).run ans u = (.error e, v) := by
  rw [run_bind, h]

lemma run_attempt (x : Proc S Q A ε α) (u : World S Q A) :
    (x.attempt : Proc S Q A ε' _).run ans u = (.ok (x.run ans u).1, (x.run ans u).2) := by
  induction x generalizing u with
  | ret r => rfl
  | act g k ih => exact ih _ _
  | send q k ih => exact ih _ _

/-- Whatever the answers, the program ends with a result and a world in `T` or with an error and a
world in `F`. -/
def wp (T : α → World S Q A → Prop) (F : ε → World S Q A → Prop) :
    Proc S Q A ε α → World S Q A → Prop
  | ret (.ok a), w => T a w
  | ret (.error e), w => F e w
  | act f k, w => (k (f w.mem).1).wp T F ⟨(f w.mem).2, w.log⟩
  | send q k, w => ∀ a, (k a).wp T F ⟨w.mem, w.log ++ [⟨w.mem, q, a⟩]⟩

variable {T T' : α → World S Q A → Prop} {F F' : ε → World S Q A → Prop} {w : World S Q A}

/-- **Soundness**: a run ends as its precondition says. -/
theorem wp_run {x : Proc S Q A ε α} (h : x.wp T F w) (ans : ℕ → (q : Q) → A q) :
    match x.run ans w with
    | (.ok a, w') => T a w'
    | (.error e, w') => F e w' := by
  induction x generalizing w with
  | ret r => cases r <;> exact h
  | act f k ih => exact ih _ h
  | send q k ih => exact ih _ (h _)

@[simp] lemma wp_pure (a : α) : (pure a : Proc S Q A ε α).wp T F w ↔ T a w := Iff.rfl
@[simp] lemma wp_fail (e : ε) : (fail e : Proc S Q A ε α).wp T F w ↔ F e w := Iff.rfl

@[simp] lemma wp_read {U : β → World S Q A → Prop} (f : S → β) :
    (read f : Proc S Q A ε β).wp U F w ↔ U (f w.mem) w := Iff.rfl

@[simp] lemma wp_modify {U : Unit → World S Q A → Prop} (f : S → S) :
    (modify f : Proc S Q A ε Unit).wp U F w ↔ U () ⟨f w.mem, w.log⟩ := Iff.rfl

@[simp] lemma wp_request {q : Q} {U : A q → World S Q A → Prop} :
    (request q : Proc S Q A ε (A q)).wp U F w ↔ ∀ a, U a ⟨w.mem, w.log ++ [⟨w.mem, q, a⟩]⟩ :=
  Iff.rfl

@[simp] lemma wp_bind {U : β → World S Q A → Prop} (x : Proc S Q A ε α)
    (f : α → Proc S Q A ε β) :
    (x >>= f).wp U F w ↔ x.wp (fun a => (f a).wp U F) F w := by
  show (x.bind f).wp U F w ↔ _
  induction x generalizing w with
  | ret r => cases r <;> rfl
  | act g k ih => exact ih _
  | send q k ih => exact forall_congr' fun a => ih a

@[simp] lemma wp_attempt {U : Except ε α → World S Q A → Prop} {G : ε' → World S Q A → Prop}
    (x : Proc S Q A ε α) :
    (x.attempt : Proc S Q A ε' _).wp U G w ↔
      x.wp (fun a => U (.ok a)) (fun e => U (.error e)) w := by
  induction x generalizing w with
  | ret r => cases r <;> rfl
  | act g k ih => exact ih _
  | send q k ih => exact forall_congr' fun a => ih a

@[simp] lemma wp_mapError {G : ε' → World S Q A → Prop} (g : ε → ε') (x : Proc S Q A ε α) :
    (x.mapError g).wp T G w ↔ x.wp T (fun e => G (g e)) w := by
  induction x generalizing w with
  | ret r => cases r <;> rfl
  | act g k ih => exact ih _
  | send q k ih => exact forall_congr' fun a => ih a

lemma wp_mono (hT : ∀ a w, T a w → T' a w) (hF : ∀ e w, F e w → F' e w) {x : Proc S Q A ε α}
    (h : x.wp T F w) : x.wp T' F' w := by
  induction x generalizing w with
  | ret r =>
    cases r with
    | ok a => exact hT a w h
    | error e => exact hF e w h
  | act f k ih => exact ih _ h
  | send q k ih => exact fun a => ih a (h a)

/-- A part of a program stands for what is known of it. -/
lemma wp_bind_of {U : β → World S Q A → Prop} {G : ε → World S Q A → Prop}
    {x : Proc S Q A ε α} {f : α → Proc S Q A ε β} (h : x.wp T F w)
    (hT : ∀ a w, T a w → (f a).wp U G w) (hF : ∀ e w, F e w → G e w) : (x >>= f).wp U G w :=
  (wp_bind x f).mpr (wp_mono hT hF h)

/-! ### What is asked -/

/-- Every question the program can come to is in `P`. -/
def Asks (P : Q → Prop) : Proc S Q A ε α → Prop
  | ret _ => True
  | act f k => ∀ s, (k (f s).1).Asks P
  | send q k => P q ∧ ∀ a, (k a).Asks P

variable {P P' : Q → Prop}

lemma Asks.bind {x : Proc S Q A ε α} {f : α → Proc S Q A ε β} (hx : x.Asks P)
    (hf : ∀ a, (f a).Asks P) : (x >>= f).Asks P := by
  show (x.bind f).Asks P
  induction x with
  | ret r =>
    cases r with
    | ok a => exact hf a
    | error e => trivial
  | act g k ih => exact fun s => ih _ (hx s)
  | send q k ih => exact ⟨hx.1, fun a => ih a (hx.2 a)⟩

lemma Asks.mapError {x : Proc S Q A ε α} {g : ε → ε'} (hx : x.Asks P) :
    (x.mapError g).Asks P := by
  induction x with
  | ret r => cases r <;> trivial
  | act f k ih => exact fun s => ih _ (hx s)
  | send q k ih => exact ⟨hx.1, fun a => ih a (hx.2 a)⟩

/-- What the program asks is what it adds to the log. -/
theorem Asks.wp {x : Proc S Q A ε α} (hx : x.Asks P) (w : World S Q A) :
    x.wp (fun _ w' => ∃ l, w'.log = w.log ++ l ∧ ∀ e ∈ l, P e.query)
      (fun _ w' => ∃ l, w'.log = w.log ++ l ∧ ∀ e ∈ l, P e.query) w := by
  induction x generalizing w with
  | ret r => cases r <;> exact ⟨[], (List.append_nil _).symm, by simp⟩
  | act g k ih => exact ih _ (hx _) ⟨(g w.mem).2, w.log⟩
  | send q k ih =>
    intro a
    have add (w' : World S Q A) :
        (∃ l, w'.log = w.log ++ [⟨w.mem, q, a⟩] ++ l ∧ ∀ e ∈ l, P e.query) →
          ∃ l, w'.log = w.log ++ l ∧ ∀ e ∈ l, P e.query := by
      rintro ⟨l, hl, hP⟩
      refine ⟨⟨w.mem, q, a⟩ :: l, by rw [hl, List.append_assoc, List.singleton_append], ?_⟩
      simpa using ⟨hx.1, hP⟩
    exact wp_mono (fun _ w' => add w') (fun _ w' => add w')
      (ih a (hx.2 a) ⟨w.mem, w.log ++ [⟨w.mem, q, a⟩]⟩)

/-- The same of a run. -/
lemma Asks.run {x : Proc S Q A ε α} (hx : x.Asks P) (ans : ℕ → (q : Q) → A q) (w : World S Q A) :
    ∃ l, (x.run ans w).2.log = w.log ++ l ∧ ∀ e ∈ l, P e.query := by
  have h := wp_run (hx.wp w) ans
  rcases hr : x.run ans w with ⟨e | a, w'⟩ <;> rw [hr] at h <;> exact h

end Proc

end Veckomenyn.Remote
