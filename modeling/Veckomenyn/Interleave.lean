import Mathlib.Data.Fintype.Basic
import Mathlib.Logic.Function.Basic
import Veckomenyn.Txn

/-!
Programs that run at the same time.

Under READ COMMITTED a statement of a client sees what is committed and the writes its own
transaction has pending. A statement that would write a row another client has pending has
to wait until that client ends its transaction. Identities drawn by a statement stay drawn
for everyone, committed or not.
-/

namespace Veckomenyn.Txn

variable {D W K E L Q : Type} {A : Q → Type} {ε α : Type}

/-! ### Every statement of a program -/

/-- Every statement the transaction can come to is in `C`, and every value it can end with is in
`R`. -/
def Tx.Forall (C : ∀ β : Type, Stmt D W E L β → Prop) (R : α → Prop) : Tx D W E L ε α → Prop
  | ret (.ok a) => R a
  | ret (.error _) => True
  | stmt s _ k => C _ s ∧ ∀ b, (k b).Forall C R

lemma Tx.Forall.bind {β : Type} {C : ∀ β : Type, Stmt D W E L β → Prop} {R : α → Prop}
    {R' : β → Prop} {x : Tx D W E L ε α} {f : α → Tx D W E L ε β} (hx : x.Forall C R)
    (hf : ∀ a, R a → (f a).Forall C R') : (x >>= f).Forall C R' := by
  show (x.bind f).Forall C R'
  induction x with
  | ret r =>
    cases r with
    | ok a => exact hf a hx
    | error e => trivial
  | stmt s fail k ih => exact ⟨hx.1, fun b => ih b (hx.2 b)⟩

/-- Every statement the program can come to is in `C`. -/
def Prog.Forall (C : ∀ β : Type, Stmt D W E L β → Prop) : Prog D W E L Q A ε α → Prop
  | ret _ => True
  | auto s k => C _ s ∧ ∀ r, (k r).Forall C
  | tx body k => body.Forall C (fun _ => True) ∧ ∀ r, (k r).Forall C
  | ask _ k => ∀ a, (k a).Forall C

lemma Prog.Forall.bind {β : Type} {C : ∀ β : Type, Stmt D W E L β → Prop}
    {x : Prog D W E L Q A ε α} {f : α → Prog D W E L Q A ε β} (hx : x.Forall C)
    (hf : ∀ a, (f a).Forall C) : (x >>= f).Forall C := by
  show (x.bind f).Forall C
  induction x with
  | ret r =>
    cases r with
    | ok a => exact hf a
    | error e => trivial
  | auto s k ih => exact ⟨hx.1, fun r => ih r (hx.2 r)⟩
  | tx body k ih => exact ⟨hx.1, fun r => ih r (hx.2 r)⟩
  | ask q k ih => exact fun a => ih a (hx a)

/-- The program runs statements on their own, and none of them writes. -/
def Prog.Quiet : Prog D W E L Q A ε α → Prop
  | ret _ => True
  | auto s k => (∀ d ws b, s.run d = .ok (ws, b) → ws = []) ∧ ∀ r, (k r).Quiet
  | tx _ _ => False
  | ask _ k => ∀ a, (k a).Quiet

lemma Prog.Quiet.bind {β : Type} {x : Prog D W E L Q A ε α} {f : α → Prog D W E L Q A ε β}
    (hx : x.Quiet) (hf : ∀ a, (f a).Quiet) : (x >>= f).Quiet := by
  show (x.bind f).Quiet
  induction x with
  | ret r =>
    cases r with
    | ok a => exact hf a
    | error e => trivial
  | auto s k ih => exact ⟨hx.1, fun r => ih r (hx.2 r)⟩
  | tx body k ih => exact hx.elim
  | ask q k ih => exact fun a => ih a (hx a)

/-! ### Clients -/

/-- Where a client is: between transactions, or inside one with writes pending. -/
inductive Client (D W E L : Type) (Q : Type) (A : Q → Type) (ε α : Type) : Type 1 where
  | idle (p : Prog D W E L Q A ε α)
  | inTx {γ δ : Type} (pend : List W) (body : Tx D W E L γ δ)
      (k : Except γ δ → Prog D W E L Q A ε α)

namespace Client

def pend : Client D W E L Q A ε α → List W
  | idle _ => []
  | inTx ws _ _ => ws

/-- The statement the client sends next. -/
def next? : Client D W E L Q A ε α → Option L
  | idle (.auto s _) => some s.label
  | inTx _ (.stmt s _ _) _ => some s.label
  | _ => none

/-- The client's next step commits. -/
def commits : Client D W E L Q A ε α → Bool
  | inTx _ (.ret (.ok _)) _ => true
  | _ => false

/-- The client has returned. -/
def done : Client D W E L Q A ε α → Bool
  | idle (.ret _) => true
  | _ => false

/-- Every statement the client can come to is in `C`. -/
def Forall (C : ∀ β : Type, Stmt D W E L β → Prop) : Client D W E L Q A ε α → Prop
  | idle p => p.Forall C
  | inTx _ body k => body.Forall C (fun _ => True) ∧ ∀ r, (k r).Forall C

@[simp] lemma pend_idle (p : Prog D W E L Q A ε α) : (idle p).pend = [] := rfl
@[simp] lemma pend_inTx {γ δ : Type} (ws : List W) (body : Tx D W E L γ δ)
    (k : Except γ δ → Prog D W E L Q A ε α) : (inTx ws body k).pend = ws := rfl

end Client

/-- `drawn` are the writes statements have made so far, committed or not, and `commits`
the clients whose transactions have committed, in that order. -/
structure Sys (D W E L : Type) (Q : Type) (A : Q → Type) (ι : Type) (ε α : ι → Type) where
  db : D
  drawn : List W
  commits : List ι
  cl : ∀ i, Client D W E L Q A (ε i) (α i)

namespace Sys

variable {ι : Type} {ε α : ι → Type} [Database D W K] [Fintype ι] [DecidableEq ι] [DecidableEq K]
  [IsEmpty Q]

def start (d : D) (p : ∀ i, Prog D W E L Q A (ε i) (α i)) : Sys D W E L Q A ι ε α :=
  ⟨d, [], [], fun i => .idle (p i)⟩

def set (s : Sys D W E L Q A ι ε α) (i : ι) (c : Client D W E L Q A (ε i) (α i)) :
    Sys D W E L Q A ι ε α :=
  { s with cl := Function.update s.cl i c }

/-- What a statement of client `i` sees. -/
def view (s : Sys D W E L Q A ι ε α) (i : ι) : D :=
  reserveAll (applyAll s.db (s.cl i).pend) s.drawn

/-- No row of `ws` is locked by a client other than `i`. -/
def Free (s : Sys D W E L Q A ι ε α) (i : ι) (ws : List W) : Prop :=
  ∀ j, j ≠ i → ∀ v ∈ (s.cl j).pend, ∀ w ∈ ws, (Database.key D v : K) ≠ Database.key D w

instance (s : Sys D W E L Q A ι ε α) (i : ι) (ws : List W) : Decidable (s.Free i ws) := by
  unfold Free; infer_instance

/-- The next step of client `i`, if it has one and need not wait. -/
def step (s : Sys D W E L Q A ι ε α) (i : ι) : Option (Sys D W E L Q A ι ε α) :=
  match s.cl i with
  | .idle (.ret _) => none
  | .idle (.ask q _) => isEmptyElim q
  | .idle (.tx body k) => some (s.set i (.inTx [] body k))
  | .idle (.auto t k) => match t.run (s.view i) with
    | .error e => some (s.set i (.idle (k (.error e))))
    | .ok (ws, b) =>
      if s.Free i ws then
        some { s.set i (.idle (k (.ok b))) with db := applyAll s.db ws, drawn := s.drawn ++ ws }
      else none
  | .inTx pend (.ret (.ok a)) k =>
    some { s.set i (.idle (k (.ok a))) with
      db := applyAll s.db pend, commits := s.commits ++ [i] }
  | .inTx _ (.ret (.error e)) k => some (s.set i (.idle (k (.error e))))
  | .inTx pend (.stmt t fail body) k => match t.run (s.view i) with
    | .error e => some (s.set i (.inTx pend (.ret (.error (fail e))) k))
    | .ok (ws, b) =>
      if s.Free i ws then
        some { s.set i (.inTx (pend ++ ws) (body b) k) with drawn := s.drawn ++ ws }
      else none

/-- The clients take steps in the order of a schedule. -/
def run (s : Sys D W E L Q A ι ε α) : List ι → Option (Sys D W E L Q A ι ε α)
  | [] => some s
  | i :: is => (s.step i).bind fun s' => s'.run is

variable {s s' : Sys D W E L Q A ι ε α} {i j : ι}

omit [Fintype ι] [IsEmpty Q] in
@[simp] lemma set_cl_self (c : Client D W E L Q A (ε i) (α i)) : (s.set i c).cl i = c :=
  Function.update_self ..

omit [Fintype ι] [IsEmpty Q] in
lemma set_cl_of_ne (c : Client D W E L Q A (ε i) (α i)) (h : j ≠ i) : (s.set i c).cl j = s.cl j :=
  Function.update_of_ne h ..

/-! ### What a step does -/

lemma step_ret {r : Except (ε i) (α i)} (hc : s.cl i = .idle (.ret r)) : s.step i = none := by
  rw [step, hc]

lemma step_begin {γ δ : Type} {body : Tx D W E L γ δ} {k : Except γ δ → Prog D W E L Q A (ε i) (α i)}
    (hc : s.cl i = .idle (.tx body k)) : s.step i = some (s.set i (.inTx [] body k)) := by
  rw [step, hc]

lemma step_auto {β : Type} {t : Stmt D W E L β} {k : Except E β → Prog D W E L Q A (ε i) (α i)}
    (hc : s.cl i = .idle (.auto t k)) (hs : s.step i = some s') :
    (∃ e, t.run (s.view i) = .error e ∧ s' = s.set i (.idle (k (.error e)))) ∨
      ∃ ws b, t.run (s.view i) = .ok (ws, b) ∧ s.Free i ws ∧
        s' = { s.set i (.idle (k (.ok b))) with
          db := applyAll s.db ws, drawn := s.drawn ++ ws } := by
  rw [step, hc] at hs
  simp only at hs
  rcases ht : t.run (s.view i) with e | ⟨ws, b⟩ <;> rw [ht] at hs
  · exact Or.inl ⟨e, rfl, (Option.some.inj hs).symm⟩
  · simp only [Option.ite_none_right_eq_some, Option.some.injEq] at hs
    exact Or.inr ⟨ws, b, rfl, hs.1, hs.2.symm⟩

lemma step_stmt {γ δ β : Type} {pend : List W} {t : Stmt D W E L β} {fail : E → γ}
    {body : β → Tx D W E L γ δ} {k : Except γ δ → Prog D W E L Q A (ε i) (α i)}
    (hc : s.cl i = .inTx pend (.stmt t fail body) k) (hs : s.step i = some s') :
    (∃ e, t.run (s.view i) = .error e ∧ s' = s.set i (.inTx pend (.ret (.error (fail e))) k)) ∨
      ∃ ws b, t.run (s.view i) = .ok (ws, b) ∧ s.Free i ws ∧
        s' = { s.set i (.inTx (pend ++ ws) (body b) k) with drawn := s.drawn ++ ws } := by
  rw [step, hc] at hs
  simp only at hs
  rcases ht : t.run (s.view i) with e | ⟨ws, b⟩ <;> rw [ht] at hs
  · exact Or.inl ⟨e, rfl, (Option.some.inj hs).symm⟩
  · simp only [Option.ite_none_right_eq_some, Option.some.injEq] at hs
    exact Or.inr ⟨ws, b, rfl, hs.1, hs.2.symm⟩

lemma step_commit {γ δ : Type} {pend : List W} {a : δ}
    {k : Except γ δ → Prog D W E L Q A (ε i) (α i)} (hc : s.cl i = .inTx pend (.ret (.ok a)) k) :
    s.step i = some { s.set i (.idle (k (.ok a))) with
      db := applyAll s.db pend, commits := s.commits ++ [i] } := by
  rw [step, hc]

lemma step_rollback {γ δ : Type} {pend : List W} {e : γ}
    {k : Except γ δ → Prog D W E L Q A (ε i) (α i)} (hc : s.cl i = .inTx pend (.ret (.error e)) k) :
    s.step i = some (s.set i (.idle (k (.error e)))) := by
  rw [step, hc]

/-- Only the client that takes the step can commit. -/
lemma step_commits (hs : s.step i = some s') :
    s'.commits = s.commits ∨ s'.commits = s.commits ++ [i] := by
  rcases hc : s.cl i with ((r | ⟨t, k⟩ | ⟨body, k⟩ | ⟨q, k⟩) | ⟨pend, (e | a) | ⟨t, fail, body⟩, k⟩)
  · rw [step_ret hc] at hs
    cases hs
  · rcases step_auto hc hs with ⟨e, -, rfl⟩ | ⟨ws, b, -, -, rfl⟩ <;> exact Or.inl rfl
  · rw [step_begin hc, Option.some.injEq] at hs
    exact Or.inl (hs ▸ rfl)
  · exact isEmptyElim q
  · rw [step_rollback hc, Option.some.injEq] at hs
    exact Or.inl (hs ▸ rfl)
  · rw [step_commit hc, Option.some.injEq] at hs
    exact Or.inr (hs ▸ rfl)
  · rcases step_stmt hc hs with ⟨e, -, rfl⟩ | ⟨ws, b, -, -, rfl⟩ <;> exact Or.inl rfl

/-- A client that writes nothing more changes nothing but its own place. -/
lemma step_quiet {x : Prog D W E L Q A (ε i) (α i)} (hx : x.Quiet) (hc : s.cl i = .idle x)
    (hs : s.step i = some s') : ∃ y : Prog D W E L Q A (ε i) (α i), y.Quiet ∧
      s' = s.set i (.idle y) := by
  cases x with
  | ret r =>
    rw [step_ret hc] at hs
    cases hs
  | auto t k =>
    rcases step_auto hc hs with ⟨e, -, rfl⟩ | ⟨ws, b, ht, -, rfl⟩
    · exact ⟨_, hx.2 _, rfl⟩
    · obtain rfl := hx.1 _ _ _ ht
      refine ⟨k (.ok b), hx.2 _, ?_⟩
      simp [set]
  | tx body k => exact hx.elim
  | ask q k => exact isEmptyElim q

/-- A step of one client does not move another. -/
lemma step_cl_of_ne (hs : s.step i = some s') (h : j ≠ i) : s'.cl j = s.cl j := by
  rw [step] at hs
  split at hs
  · cases hs
  · rename_i q _ _
    exact isEmptyElim q
  · cases hs
    exact set_cl_of_ne _ h
  · split at hs
    · cases hs
      exact set_cl_of_ne _ h
    · simp only [Option.ite_none_right_eq_some, Option.some.injEq] at hs
      rw [← hs.2]
      exact set_cl_of_ne _ h
  · cases hs
    exact set_cl_of_ne _ h
  · cases hs
    exact set_cl_of_ne _ h
  · split at hs
    · cases hs
      exact set_cl_of_ne _ h
    · simp only [Option.ite_none_right_eq_some, Option.some.injEq] at hs
      rw [← hs.2]
      exact set_cl_of_ne _ h

/-! ### Row locks -/

/-- No row is pending in two clients. -/
def Exclusive (s : Sys D W E L Q A ι ε α) : Prop :=
  ∀ i j, i ≠ j → ∀ v ∈ (s.cl i).pend, ∀ w ∈ (s.cl j).pend, (Database.key D v : K) ≠ Database.key D w

omit [Fintype ι] [DecidableEq K] [IsEmpty Q] in
/-- A client that lets go of its rows, or takes free ones. -/
lemma Exclusive.of_free {ws : List W} (h : s.Exclusive) (hf : s.Free i ws)
    (hcl : ∀ j, j ≠ i → s'.cl j = s.cl j)
    (hp : ∀ w ∈ (s'.cl i).pend, w ∈ (s.cl i).pend ∨ w ∈ ws) : s'.Exclusive := by
  have key (j : ι) (hj : j ≠ i) : ∀ v ∈ (s'.cl i).pend, ∀ w ∈ (s'.cl j).pend,
      (Database.key D v : K) ≠ Database.key D w := by
    intro v hv w hw
    rw [hcl j hj] at hw
    rcases hp v hv with hv | hv
    · exact h i j hj.symm v hv w hw
    · exact (hf j hj w hw v hv).symm
  intro j l hjl v hv w hw
  by_cases hj : j = i
  · subst hj
    exact key l hjl.symm v hv w hw
  · by_cases hl : l = i
    · subst hl
      exact (key j hj w hw v hv).symm
    · rw [hcl j hj] at hv
      rw [hcl l hl] at hw
      exact h j l hjl v hv w hw

omit [Fintype ι] [DecidableEq ι] [DecidableEq K] [IsEmpty Q] in
lemma exclusive_start (d : D) (p : ∀ i, Prog D W E L Q A (ε i) (α i)) :
    (start d p : Sys D W E L Q A ι ε α).Exclusive := by
  intro i j _ v hv
  simp [start] at hv

/-- **Row locks** are exclusive. -/
theorem exclusive_step (h : s.Exclusive) (hs : s.step i = some s') : s'.Exclusive := by
  have free : s.Free i ([] : List W) := fun _ _ _ _ _ hw => by simp at hw
  have hcl (j : ι) (hj : j ≠ i) : s'.cl j = s.cl j := step_cl_of_ne hs hj
  rcases hc : s.cl i with ((r | ⟨t, k⟩ | ⟨body, k⟩ | ⟨q, k⟩) | ⟨pend, (e | a) | ⟨t, fail, body⟩, k⟩)
  · rw [step_ret hc] at hs
    cases hs
  · rcases step_auto hc hs with ⟨e, -, rfl⟩ | ⟨ws, b, -, -, rfl⟩ <;>
      exact h.of_free free hcl (by simp [set])
  · rw [step_begin hc, Option.some.injEq] at hs
    subst hs
    exact h.of_free free hcl (by simp)
  · exact isEmptyElim q
  · rw [step_rollback hc, Option.some.injEq] at hs
    subst hs
    exact h.of_free free hcl (by simp)
  · rw [step_commit hc, Option.some.injEq] at hs
    subst hs
    exact h.of_free free hcl (by simp [set])
  · rcases step_stmt hc hs with ⟨e, -, rfl⟩ | ⟨ws, b, -, hf, rfl⟩
    · exact h.of_free free hcl (by simp [hc])
    · exact h.of_free hf hcl (by simp [set, hc])

end Sys

end Veckomenyn.Txn
