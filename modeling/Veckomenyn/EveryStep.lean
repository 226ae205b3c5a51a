import Mathlib.Data.List.Basic
import Mathlib.Data.List.Induction

/-!
Runs of a machine, and what holds all along one.

A property that a step keeps exactly when the step is allowed holds all along a run exactly when
every step of the run is.
-/

namespace Veckomenyn.EveryStep

variable {σ ε : Type} {step : σ → ε → σ} {s : σ} {es : List ε}

/-- The property holds in every state of the run. -/
def Always (step : σ → ε → σ) (P : σ → Prop) (s : σ) (es : List ε) : Prop :=
  ∀ before, before <+: es → P (before.foldl step s)

/-- Every step of the run is allowed in the state it is made in. -/
def EachAllowed (step : σ → ε → σ) (A : σ → ε → Prop) (s : σ) (es : List ε) : Prop :=
  ∀ before e, before ++ [e] <+: es → A (before.foldl step s) e

lemma eachAllowed_nil {A : σ → ε → Prop} : EachAllowed step A s [] := by
  intro before e h
  exact absurd (List.prefix_nil.mp h) (by simp)

lemma eachAllowed_cons {A : σ → ε → Prop} {e : ε} :
    EachAllowed step A s (e :: es) ↔ A s e ∧ EachAllowed step A (step s e) es := by
  constructor
  · intro h
    refine ⟨h [] e (by simp), fun before e' hbefore => ?_⟩
    exact h (e :: before) e' ((List.prefix_cons_inj e).mpr hbefore)
  · rintro ⟨he, h⟩ before e' hbefore
    cases before with
    | nil =>
      obtain rfl : e' = e := by simpa using hbefore
      exact he
    | cons e₀ before =>
      obtain ⟨rfl, hrest⟩ := List.cons_prefix_cons.mp hbefore
      exact h before e' hrest

lemma eachAllowed_const {A : ε → Prop} :
    EachAllowed step (fun _ e => A e) s es ↔ ∀ e ∈ es, A e := by
  constructor
  · intro h e he
    obtain ⟨before, after, rfl⟩ := List.append_of_mem he
    exact h before e ⟨after, by rw [List.append_assoc, List.singleton_append]⟩
  · rintro h before e ⟨after, rfl⟩
    exact h e (by simp)

/-- **Allowed runs**: what every allowed step keeps holds all along a run of allowed steps. -/
theorem always_of_allowed {P : σ → Prop} {A : σ → ε → Prop} (hs : P s)
    (h : ∀ s e, P s → A s e → P (step s e)) (hA : EachAllowed step A s es) :
    Always step P s es := by
  intro before hbefore
  induction before using List.reverseRecOn with
  | nil => exact hs
  | append_singleton before e ih =>
    rw [List.foldl_concat]
    exact h _ e (ih ((List.prefix_append before [e]).trans hbefore)) (hA before e hbefore)

/-- **Invariants**: what every step keeps holds all along a run. -/
theorem always_of_step {I : σ → Prop} (hs : I s) (h : ∀ s e, I s → I (step s e)) :
    Always step I s es := by
  have hA : EachAllowed step (fun _ _ => True) s es := fun _ _ _ => trivial
  exact always_of_allowed hs (fun s e hI _ => h s e hI) hA

/-- **Allowed steps**: given an invariant, the property holds all along a run if and only if every
step is allowed. -/
theorem always_iff {I P : σ → Prop} {A : σ → ε → Prop} (hI : I s) (hP : P s)
    (hstep : ∀ s e, I s → I (step s e)) (h : ∀ s e, I s → P s → (P (step s e) ↔ A s e)) :
    Always step P s es ↔ EachAllowed step A s es := by
  constructor
  · intro hP before e hbefore
    have hpre := (List.prefix_append before [e]).trans hbefore
    refine (h _ e (always_of_step hI hstep before hpre) (hP before hpre)).mp ?_
    have hnext := hP (before ++ [e]) hbefore
    rwa [List.foldl_concat] at hnext
  · intro hA before hbefore
    have hboth : Always step (fun s => I s ∧ P s) s es :=
      always_of_allowed ⟨hI, hP⟩ (fun s e hs he => ⟨hstep s e hs.1, (h s e hs.1 hs.2).mpr he⟩) hA
    exact (hboth before hbefore).2

end Veckomenyn.EveryStep
