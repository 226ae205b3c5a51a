import Mathlib.Data.List.Basic
import Mathlib.Logic.Function.Basic
import Veckomenyn.Remote

/-!
Programs that share a memory.

The threads move one at a time, in any order: one locked section, or the arrival of an answer.
What is known of each section a program can come to, by the answer it follows, is known of every
section of a run.
-/

namespace Veckomenyn.Remote

variable {ι : Type} [DecidableEq ι] {S Q : Type} {A : Q → Type} {ε ε' α β : Type} {τ : ι → Type}

/-- A locked section: whose it is, the answer that has come in since the thread's last one, and the
memory before and after. -/
structure Act (ι S Q : Type) (A : Q → Type) where
  who : ι
  last : Option ((q : Q) × A q)
  pre : S
  post : S

structure Threads (ι S Q : Type) (A : Q → Type) (ε : Type) (τ : ι → Type) where
  mem : S
  last : ι → Option ((q : Q) × A q)
  proc : (i : ι) → Proc S Q A ε (τ i)
  acts : List (Act ι S Q A)

namespace Threads

def start (s : S) (proc : (i : ι) → Proc S Q A ε (τ i)) : Threads ι S Q A ε τ :=
  ⟨s, fun _ => none, proc, []⟩

/-- A move of the thread `i`; `ans` answers it if it waits. -/
def step (t : Threads ι S Q A ε τ) (i : ι) (ans : (q : Q) → A q) : Threads ι S Q A ε τ :=
  match t.proc i with
  | .ret _ => t
  | .act f k => ⟨(f t.mem).2, Function.update t.last i none,
      Function.update t.proc i (k (f t.mem).1), t.acts ++ [⟨i, t.last i, t.mem, (f t.mem).2⟩]⟩
  | .send q k => ⟨t.mem, Function.update t.last i (some ⟨q, ans q⟩),
      Function.update t.proc i (k (ans q)), t.acts⟩

abbrev Schedule (ι Q : Type) (A : Q → Type) := List (ι × ((q : Q) → A q))

def run (t : Threads ι S Q A ε τ) (sched : Schedule ι Q A) : Threads ι S Q A ε τ :=
  sched.foldl (fun t m => t.step m.1 m.2) t

/-- How a thread has ended. -/
def result (t : Threads ι S Q A ε τ) (i : ι) : Option (Except ε (τ i)) :=
  match t.proc i with
  | .ret r => some r
  | _ => none

/-- **Invariants**: what each move keeps, a run keeps. -/
theorem run_induction {I : Threads ι S Q A ε τ → Prop} {t : Threads ι S Q A ε τ} (h : I t)
    (hstep : ∀ t i ans, I t → I (t.step i ans)) (sched : Schedule ι Q A) : I (t.run sched) := by
  induction sched generalizing t with
  | nil => exact h
  | cons m sched ih => exact ih (hstep t m.1 m.2 h)

end Threads

/-! ### The sections of a program -/

namespace Proc

/-- The program can only end in an error. -/
def Fails : Proc S Q A ε α → Prop
  | ret r => ∀ a, r ≠ .ok a
  | act f k => ∀ s, (k (f s).1).Fails
  | send _ k => ∀ a, (k a).Fails

/-- Every section the program can come to is in `R`, by the answer it follows. -/
def Along (R : Option ((q : Q) × A q) → S → S → Prop) :
    Option ((q : Q) × A q) → Proc S Q A ε α → Prop
  | _, ret _ => True
  | last, act f k => (∀ s, R last s (f s).2) ∧ ∀ s, (k (f s).1).Along R none
  | _, send q k => ∀ a, (k a).Along R (some ⟨q, a⟩)

/-- Every section the program can come to on its way to a result is in `R`, by the answer it
follows; when there is a result, the last answer has been dealt with. -/
def AlongOk (R : Option ((q : Q) × A q) → S → S → Prop) :
    Option ((q : Q) × A q) → Proc S Q A ε α → Prop
  | last, ret r => ∀ a, r = .ok a → R last = R none
  | last, act f k => (∀ s, (k (f s).1).Fails) ∨
      (∀ s, R last s (f s).2) ∧ ∀ s, (k (f s).1).AlongOk R none
  | _, send q k => ∀ a, (k a).AlongOk R (some ⟨q, a⟩)

variable {R : Option ((q : Q) × A q) → S → S → Prop} {last last' : Option ((q : Q) × A q)}

lemma Fails.bind {x : Proc S Q A ε α} {f : α → Proc S Q A ε β} (hx : x.Fails) :
    (x >>= f).Fails := by
  show (x.bind f).Fails
  induction x with
  | ret r =>
    cases r with
    | ok a => exact absurd rfl (hx a)
    | error e => exact fun a h => by cases h
  | act g k ih => exact fun s => ih _ (hx s)
  | send q k ih => exact fun a => ih a (hx a)

lemma Fails.mapError {x : Proc S Q A ε α} {g : ε → ε'} (hx : x.Fails) : (x.mapError g).Fails := by
  induction x with
  | ret r =>
    cases r with
    | ok a => exact absurd rfl (hx a)
    | error e => exact fun a h => by cases h
  | act f k ih => exact fun s => ih _ (hx s)
  | send q k ih => exact fun a => ih a (hx a)

lemma AlongOk.congr {x : Proc S Q A ε α} (hl : R last = R last') (h : x.AlongOk R last) :
    x.AlongOk R last' := by
  cases x with
  | ret r => exact fun a ha => hl.symm.trans (h a ha)
  | act f k => exact h.imp id fun h => ⟨hl ▸ h.1, h.2⟩
  | send q k => exact h

lemma AlongOk.bind {x : Proc S Q A ε α} {f : α → Proc S Q A ε β} (hx : x.AlongOk R last)
    (hf : ∀ a, (f a).AlongOk R none) : (x >>= f).AlongOk R last := by
  show (x.bind f).AlongOk R last
  induction x generalizing last with
  | ret r =>
    cases r with
    | ok a => exact (hf a).congr (hx a rfl).symm
    | error e => exact fun a h => by cases h
  | act g k ih =>
    refine hx.imp (fun h s => (h s).bind) fun h => ⟨h.1, fun s => ih _ (h.2 s)⟩
  | send q k ih => exact fun a => ih a (hx a)

lemma AlongOk.mapError {x : Proc S Q A ε α} {g : ε → ε'} (hx : x.AlongOk R last) :
    (x.mapError g).AlongOk R last := by
  induction x generalizing last with
  | ret r =>
    cases r with
    | ok a => exact fun _ _ => hx a rfl
    | error e => exact fun a h => by cases h
  | act f k ih => exact hx.imp (fun h s => (h s).mapError) fun h => ⟨h.1, fun s => ih _ (h.2 s)⟩
  | send q k ih => exact fun a => ih a (hx a)

end Proc

namespace Threads

variable {R : Option ((q : Q) × A q) → S → S → Prop} {t : Threads ι S Q A ε τ} {i j : ι}

/-- The sections lead from one memory to the other. -/
def Leads : S → List (Act ι S Q A) → S → Prop
  | s, [], s' => s = s'
  | s, a :: as, s' => a.pre = s ∧ Leads a.post as s'

omit [DecidableEq ι] in
lemma leads_snoc {s s' : S} {as : List (Act ι S Q A)} {a : Act ι S Q A} :
    Leads s (as ++ [a]) s' ↔ Leads s as a.pre ∧ a.post = s' := by
  induction as generalizing s with
  | nil => simp [Leads, eq_comm]
  | cons b as ih => simp [Leads, ih, and_assoc]

/-- If the next move of a thread is a section, it is in `R`. -/
def NextIn (R : Option ((q : Q) × A q) → S → S → Prop) (t : Threads ι S Q A ε τ) (i : ι) : Prop :=
  match t.proc i with
  | .act f _ => R (t.last i) t.mem (f t.mem).2
  | _ => True

lemma step_other (h : j ≠ i) (ans : (q : Q) → A q) :
    (t.step i ans).proc j = t.proc j ∧ (t.step i ans).last j = t.last j := by
  rw [Threads.step]
  split <;> simp [h]

/-- **Sections**: the next one is in `R`, and the thread goes on along `R`. -/
lemma along_step (h : (t.proc i).Along R (t.last i)) (ans : (q : Q) → A q) :
    t.NextIn R i ∧ ((t.step i ans).proc i).Along R ((t.step i ans).last i) := by
  rw [NextIn, Threads.step]
  cases hp : t.proc i with
  | ret r => exact ⟨trivial, by simpa [hp] using h⟩
  | act f k =>
    rw [hp] at h
    exact ⟨h.1 t.mem, by simpa using h.2 t.mem⟩
  | send q k =>
    rw [hp] at h
    exact ⟨trivial, by simpa using h (ans q)⟩

/-- The same on the way to a result, unless there will be none. -/
lemma alongOk_step (h : (t.proc i).AlongOk R (t.last i)) (ans : (q : Q) → A q) :
    ((t.step i ans).proc i).Fails ∨
      t.NextIn R i ∧ ((t.step i ans).proc i).AlongOk R ((t.step i ans).last i) := by
  rw [NextIn, Threads.step]
  cases hp : t.proc i with
  | ret r => exact Or.inr ⟨trivial, by simpa [hp] using h⟩
  | act f k =>
    rw [hp] at h
    exact h.imp (fun h => by simpa using h t.mem) fun h => ⟨h.1 t.mem, by simpa using h.2 t.mem⟩
  | send q k =>
    rw [hp] at h
    exact Or.inr ⟨trivial, by simpa using h (ans q)⟩

lemma fails_step (h : (t.proc i).Fails) (j : ι) (ans : (q : Q) → A q) :
    ((t.step j ans).proc i).Fails := by
  by_cases hj : i = j
  · subst hj
    rw [Threads.step]
    cases hp : t.proc i with
    | ret r => simpa [hp] using h
    | act f k =>
      rw [hp] at h
      simpa using h t.mem
    | send q k =>
      rw [hp] at h
      simpa using h (ans q)
  · rw [(step_other hj ans).1]
    exact h

/-- A thread that can only fail never has a result. -/
lemma fails_run (h : (t.proc i).Fails) (sched : Schedule ι Q A) :
    ((t.run sched).result i).any Except.toBool = false := by
  have hrun := run_induction (I := fun t : Threads ι S Q A ε τ => (t.proc i).Fails) h
    (fun _ j ans h => fails_step h j ans) sched
  rw [result]
  cases hp : (t.run sched).proc i with
  | ret r =>
    rw [hp] at hrun
    cases r with
    | ok a => exact absurd rfl (hrun a)
    | error e => rfl
  | act f k => rfl
  | send q k => rfl

end Threads

end Veckomenyn.Remote
