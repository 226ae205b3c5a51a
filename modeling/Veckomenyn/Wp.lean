import Veckomenyn.Txn

/-!
Preconditions of programs run alone.

`x.wp T F d` says that `x`, run on `d` whatever the outside world answers, ends with a result
and a database in `T`, or with an error and a database in `F`. A program is taken apart at
its binds, and a part is replaced by what is known of it with `wp_mono`.
-/

namespace Veckomenyn.Txn

variable {D W K E L Q : Type} {A : Q → Type} {ε α β σ : Type} [Database D W K]

/-- How a statement ends, as a case distinction and as two implications. -/
lemma ends_iff {r : Except E (List W × β)} {P : E → Prop} {R : List W → β → Prop} :
    (match r with
      | .error e => P e
      | .ok (ws, b) => R ws b) ↔
    (∀ e, r = .error e → P e) ∧ ∀ ws b, r = .ok (ws, b) → R ws b := by
  rcases r with e | ⟨ws, b⟩
  · simp
  · simp only [reduceCtorEq, false_imp_iff, implies_true, true_and, Except.ok.injEq,
      Prod.mk.injEq]
    refine ⟨?_, fun h => h ws b ⟨rfl, rfl⟩⟩
    rintro h _ _ ⟨rfl, rfl⟩
    exact h

namespace Tx

def wp (T : α → D → Prop) (F : ε → D → Prop) : Tx D W E L ε α → D → Prop
  | ret (.ok a), d => T a d
  | ret (.error e), d => F e d
  | stmt s fail k, d => match s.run d with
    | .error e => F (fail e) d
    | .ok (ws, b) => (k b).wp T F (applyAll d ws)

-- the equations are made here, once, and not in each of the proofs that rewrite with them
attribute [local simp] wp

variable {T T' : α → D → Prop} {F F' : ε → D → Prop}

@[simp] lemma wp_pure (a : α) (d : D) : (pure a : Tx D W E L ε α).wp T F d ↔ T a d := Iff.rfl
@[simp] lemma wp_fail (e : ε) (d : D) : (fail e : Tx D W E L ε α).wp T F d ↔ F e d := Iff.rfl

lemma wp_query (s : Stmt D W E L α) (f : E → ε) (d : D) : (query s f).wp T F d ↔
    (∀ e, s.run d = .error e → F (f e) d) ∧
      ∀ ws a, s.run d = .ok (ws, a) → T a (applyAll d ws) := by
  rw [← ends_iff, query, wp]
  rcases s.run d with e | ⟨ws, a⟩ <;> rfl

lemma wp_bind {U : β → D → Prop} (x : Tx D W E L ε α) (f : α → Tx D W E L ε β) (d : D) :
    (x >>= f).wp U F d ↔ x.wp (fun a => (f a).wp U F) F d := by
  show (x.bind f).wp U F d ↔ _
  induction x generalizing d with
  | ret r => cases r <;> rfl
  | stmt s fail k ih =>
    rw [bind, wp, wp]
    rcases s.run d with e | ⟨ws, b⟩
    · rfl
    · exact ih b _

lemma wp_mono (hT : ∀ a d, T a d → T' a d) (hF : ∀ e d, F e d → F' e d) {x : Tx D W E L ε α} {d : D}
    (h : x.wp T F d) : x.wp T' F' d := by
  induction x generalizing d with
  | ret r =>
    cases r with
    | ok a => exact hT a d h
    | error e => exact hF e d h
  | stmt s fail k ih =>
    rw [wp] at h ⊢
    rcases hs : s.run d with e | ⟨ws, b⟩ <;> rw [hs] at h
    · exact hF _ d h
    · exact ih b h

lemma wp_inside {x : Tx D W E L ε α} {d : D} (h : x.wp T F d) :
    match x.inside d with
    | (.ok a, v) => T a v
    | (.error e, v) => F e v := by
  induction x generalizing d with
  | ret r => cases r <;> exact h
  | stmt s fail k ih =>
    rw [wp] at h
    rcases hs : s.run d with e | ⟨ws, b⟩ <;> rw [hs] at h
    · rw [inside, exec_stmt_error hs]
      exact h
    · have hk := ih b h
      rw [inside] at hk
      rw [inside, exec_stmt_ok hs, applyAll_append]
      exact hk

end Tx

namespace Prog

def wp (T : α → D → Prop) (F : ε → D → Prop) : Prog D W E L Q A ε α → D → Prop
  | ret (.ok a), d => T a d
  | ret (.error e), d => F e d
  | auto s k, d => match s.run d with
    | .error e => (k (.error e)).wp T F d
    | .ok (ws, b) => (k (.ok b)).wp T F (applyAll d ws)
  | tx body k, d => (k (body.run d).1).wp T F (body.run d).2
  | ask _ k, d => ∀ a, (k a).wp T F d

attribute [local simp] wp

variable {T T' : α → D → Prop} {F F' : ε → D → Prop}

/-- **Soundness**: a run ends as its precondition says. -/
theorem wp_run {x : Prog D W E L Q A ε α} {d : D} (h : x.wp T F d)
    (ans : (q : Q) → σ → A q × σ) (s : σ) :
    match x.run ans (d, s) with
    | (.ok a, c) => T a c.1
    | (.error e, c) => F e c.1 := by
  induction x generalizing d s with
  | ret r => cases r <;> exact h
  | auto t k ih =>
    rw [wp] at h
    rw [run]
    rcases ht : t.run d with e | ⟨ws, b⟩ <;> rw [ht] at h
    · exact ih _ h s
    · exact ih _ h s
  | tx body k ih => exact ih _ h s
  | ask q k ih => exact ih _ (h _) _

@[simp] lemma wp_pure (a : α) (d : D) : (pure a : Prog D W E L Q A ε α).wp T F d ↔ T a d := Iff.rfl
@[simp] lemma wp_fail (e : ε) (d : D) : (fail e : Prog D W E L Q A ε α).wp T F d ↔ F e d := Iff.rfl

lemma wp_bind {U : β → D → Prop} (x : Prog D W E L Q A ε α) (f : α → Prog D W E L Q A ε β) (d : D) :
    (x >>= f).wp U F d ↔ x.wp (fun a => (f a).wp U F) F d := by
  show (x.bind f).wp U F d ↔ _
  induction x generalizing d with
  | ret r => cases r <;> rfl
  | auto s k ih =>
    rw [bind, wp, wp]
    rcases s.run d with e | ⟨ws, b⟩ <;> exact ih _ _
  | tx body k ih => exact ih _ _
  | ask q k ih => exact forall_congr' fun a => ih a d

lemma wp_mono (hT : ∀ a d, T a d → T' a d) (hF : ∀ e d, F e d → F' e d)
    {x : Prog D W E L Q A ε α} {d : D} (h : x.wp T F d) : x.wp T' F' d := by
  induction x generalizing d with
  | ret r =>
    cases r with
    | ok a => exact hT a d h
    | error e => exact hF e d h
  | auto s k ih =>
    rw [wp] at h ⊢
    rcases hs : s.run d with e | ⟨ws, b⟩ <;> rw [hs] at h <;> exact ih _ h
  | tx body k ih => exact ih _ h
  | ask q k ih => exact fun a => ih a (h a)

/-- A part of a program stands for what is known of it. -/
lemma wp_bind_of {U : β → D → Prop} {G : ε → D → Prop} {x : Prog D W E L Q A ε α}
    {f : α → Prog D W E L Q A ε β} {d : D} (h : x.wp T F d)
    (hT : ∀ a v, T a v → (f a).wp U G v) (hF : ∀ e v, F e v → G e v) : (x >>= f).wp U G d :=
  (wp_bind x f d).mpr (wp_mono hT hF h)

lemma wp_query (s : Stmt D W E L α) (f : E → ε) (d : D) :
    (query s f : Prog D W E L Q A ε α).wp T F d ↔ (∀ e, s.run d = .error e → F (f e) d) ∧
      ∀ ws a, s.run d = .ok (ws, a) → T a (applyAll d ws) := by
  rw [← ends_iff, query, wp]
  rcases s.run d with e | ⟨ws, a⟩ <;> rfl

lemma wp_tried {U : Except E α → D → Prop} (s : Stmt D W E L α) (d : D) :
    (tried s : Prog D W E L Q A ε _).wp U F d ↔ (∀ e, s.run d = .error e → U (.error e) d) ∧
      ∀ ws a, s.run d = .ok (ws, a) → U (.ok a) (applyAll d ws) := by
  rw [← ends_iff, tried, wp]
  rcases s.run d with e | ⟨ws, a⟩ <;> rfl

@[simp] lemma wp_request {q : Q} {U : A q → D → Prop} (d : D) :
    (request q : Prog D W E L Q A ε _).wp U F d ↔ ∀ a, U a d := Iff.rfl

/-- A transaction commits what it has done, or leaves raised counters behind. -/
lemma wp_transaction {body : Tx D W E L ε α} {d : D}
    (h : body.wp T (fun e _ => ∀ ws : List W, F e (reserveAll d ws)) d) :
    (transaction body : Prog D W E L Q A ε α).wp T F d := by
  rw [transaction, wp]
  have hi := Tx.wp_inside h
  rcases hb : body.inside d with ⟨e | a, v⟩ <;> rw [hb] at hi
  · rw [Tx.run_of_error hb]
    exact hi _
  · rw [Tx.run_of_ok hb]
    exact hi

end Prog

end Veckomenyn.Txn
