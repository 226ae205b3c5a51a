import Mathlib.Order.Defs.Unbundled
import Veckomenyn.Threads

/-!
Programs among others that only move the memory one way.

When every section of every thread moves the memory along one preorder, what a thread has found
out stays true as far as the preorder keeps it. So each thread is looked at alone, in an
environment that may have moved the memory between any two of its steps.
-/

namespace Veckomenyn.Remote

variable {ι : Type} [DecidableEq ι] {S Q : Type} {A : Q → Type} {ε α β : Type} {τ : ι → Type}

namespace Proc

/-- While the others move the memory along `R`, so does the program, and it ends as `P` says. -/
def Under (R : S → S → Prop) (P : Except ε α → S → Prop) : Proc S Q A ε α → S → Prop
  | ret r, s => ∀ s', R s s' → P r s'
  | act f k, s => ∀ s', R s s' → R s' (f s').2 ∧ (k (f s').1).Under R P (f s').2
  | send _ k, s => ∀ a, (k a).Under R P s

variable {R : S → S → Prop} [IsTrans S R] {P : Except ε α → S → Prop}

lemma Under.of_rel {x : Proc S Q A ε α} {s s' : S} (h : x.Under R P s) (hs : R s s') :
    x.Under R P s' := by
  induction x generalizing s s' with
  | ret r => exact fun s'' hs' => h s'' (Trans.trans hs hs')
  | act f k ih => exact fun s'' hs' => h s'' (Trans.trans hs hs')
  | send q k ih => exact fun a => ih a (h a) hs

end Proc

namespace Threads

variable {R : S → S → Prop} [IsTrans S R] {P : (i : ι) → Except ε (τ i) → S → Prop}

structure Along (R : S → S → Prop) (P : (i : ι) → Except ε (τ i) → S → Prop) (s : S)
    (t : Threads ι S Q A ε τ) : Prop where
  mem : R s t.mem
  proc : ∀ i, (t.proc i).Under R (P i) t.mem

lemma Along.step [Std.Refl R] {s : S} {t : Threads ι S Q A ε τ} (h : Along R P s t) (i : ι)
    (ans : (q : Q) → A q) : Along R P s (t.step i ans) := by
  have hi := h.proc i
  rw [Threads.step]
  split
  · exact h
  · next f k hk =>
    rw [hk] at hi
    have hf := hi t.mem (Std.Refl.refl _)
    refine ⟨Trans.trans h.mem hf.1, fun j => ?_⟩
    by_cases hj : j = i
    · subst hj
      simpa using hf.2
    · simpa [hj] using (h.proc j).of_rel hf.1
  · next q k hk =>
    rw [hk] at hi
    refine ⟨h.mem, fun j => ?_⟩
    by_cases hj : j = i
    · subst hj
      simpa using hi (ans q)
    · simpa [hj] using h.proc j

/-- **Rely and guarantee**: threads that are right alone, in an environment that moves the memory
along `R`, are right together. -/
theorem along_run [Std.Refl R] {s : S} {proc : (i : ι) → Proc S Q A ε (τ i)}
    (h : ∀ i, (proc i).Under R (P i) s) (sched : Schedule ι Q A) :
    Along R P s ((start s proc).run sched) :=
  run_induction ⟨Std.Refl.refl s, h⟩ (fun _ i ans ht => ht.step i ans) sched

omit [DecidableEq ι] [IsTrans S R] in
/-- How a thread has ended is still true. -/
lemma Along.result [Std.Refl R] {s : S} {t : Threads ι S Q A ε τ} (h : Along R P s t) {i : ι}
    {r : Except ε (τ i)} (hr : t.result i = some r) : P i r t.mem := by
  have hi := h.proc i
  unfold Threads.result at hr
  split at hr
  · next r' hp =>
    rw [hp] at hi
    exact Option.some.inj hr ▸ hi t.mem (Std.Refl.refl _)
  · exact absurd hr (by simp)

end Threads

end Veckomenyn.Remote
