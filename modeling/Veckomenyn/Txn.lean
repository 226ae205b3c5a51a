import Mathlib.Data.List.Basic
import Mathlib.Tactic.NormNum

/-!
Programs that talk to a database.

A statement reads the database and answers with row writes and a result. A transaction is
a tree of statements: the first one that fails, or an error the program returns itself,
rolls it back. A program runs statements on their own, transactions, and requests to the
outside world. Run alone, a program is a function.
-/

namespace Veckomenyn.Txn

/-- A database changed by row writes. Writes that draw identities raise the counters for
good, also when they are rolled back. -/
class Database (D W : Type) (K : outParam Type) where
  apply : D → W → D
  key : W → K
  reserve : D → W → D
  reserve_apply (d : D) (w : W) : reserve (apply d w) w = apply d w
  reserve_stays {d : D} {w : W} (v : W) : reserve d w = d → reserve (apply d v) w = apply d v

variable {D W K E L Q : Type} {A : Q → Type} {ε α β σ : Type}

def applyAll [Database D W K] (d : D) (ws : List W) : D := ws.foldl Database.apply d

def reserveAll [Database D W K] (d : D) (ws : List W) : D := ws.foldl Database.reserve d

/-! ### Programs -/

structure Stmt (D W E L β : Type) where
  label : L
  run : D → Except E (List W × β)

/-- What happens between BEGIN and COMMIT. -/
inductive Tx (D W E L ε α : Type) : Type 1 where
  | ret (r : Except ε α)
  | stmt {β : Type} (s : Stmt D W E L β) (fail : E → ε) (k : β → Tx D W E L ε α)

/-- `auto` is a statement on its own, `ask` a request to the outside world. -/
inductive Prog (D W E L : Type) (Q : Type) (A : Q → Type) (ε α : Type) : Type 1 where
  | ret (r : Except ε α)
  | auto {β : Type} (s : Stmt D W E L β) (k : Except E β → Prog D W E L Q A ε α)
  | tx {γ δ : Type} (body : Tx D W E L γ δ) (k : Except γ δ → Prog D W E L Q A ε α)
  | ask (q : Q) (k : A q → Prog D W E L Q A ε α)

namespace Tx

def bind : Tx D W E L ε α → (α → Tx D W E L ε β) → Tx D W E L ε β
  | ret (.ok a), f => f a
  | ret (.error e), _ => ret (.error e)
  | stmt s fail k, f => stmt s fail fun b => (k b).bind f

instance : Monad (Tx D W E L ε) where
  pure a := ret (.ok a)
  bind := bind

def query (s : Stmt D W E L β) (fail : E → ε) : Tx D W E L ε β := stmt s fail pure

def fail (e : ε) : Tx D W E L ε α := ret (.error e)

end Tx

namespace Prog

def bind : Prog D W E L Q A ε α → (α → Prog D W E L Q A ε β) → Prog D W E L Q A ε β
  | ret (.ok a), f => f a
  | ret (.error e), _ => ret (.error e)
  | auto s k, f => auto s fun r => (k r).bind f
  | tx body k, f => tx body fun r => (k r).bind f
  | ask q k, f => ask q fun r => (k r).bind f

instance : Monad (Prog D W E L Q A ε) where
  pure a := ret (.ok a)
  bind := bind

def fail (e : ε) : Prog D W E L Q A ε α := ret (.error e)

/-- A statement on its own, whose failure the program goes on from. -/
def tried (s : Stmt D W E L β) : Prog D W E L Q A ε (Except E β) := auto s pure

def query (s : Stmt D W E L β) (fail : E → ε) : Prog D W E L Q A ε β :=
  auto s fun
    | .ok b => pure b
    | .error e => ret (.error (fail e))

def transaction (body : Tx D W E L ε β) : Prog D W E L Q A ε β := tx body ret

def request (q : Q) : Prog D W E L Q A ε (A q) := ask q pure

end Prog

/-! ### One program alone -/

variable [Database D W K]

namespace Tx

/-- The writes of a transaction that sees `d`, and how it ends. -/
def exec : Tx D W E L ε α → D → List W × Except ε α
  | ret r, _ => ([], r)
  | stmt s fail k, d => match s.run d with
    | .error e => ([], .error (fail e))
    | .ok (ws, b) => (ws ++ ((k b).exec (applyAll d ws)).1, ((k b).exec (applyAll d ws)).2)

/-- What the transaction itself sees at its end. -/
def inside (t : Tx D W E L ε α) (d : D) : Except ε α × D := ((t.exec d).2, applyAll d (t.exec d).1)

def run (t : Tx D W E L ε α) (d : D) : Except ε α × D :=
  match t.exec d with
  | (ws, .ok a) => (.ok a, applyAll d ws)
  | (ws, .error e) => (.error e, reserveAll d ws)

end Tx

namespace Prog

def run (ans : (q : Q) → σ → A q × σ) : Prog D W E L Q A ε α → D × σ → Except ε α × D × σ
  | ret r, c => (r, c)
  | auto s k, c => match s.run c.1 with
    | .error e => (k (.error e)).run ans c
    | .ok (ws, b) => (k (.ok b)).run ans (applyAll c.1 ws, c.2)
  | tx body k, c => (k (body.run c.1).1).run ans ((body.run c.1).2, c.2)
  | ask q k, c => (k (ans q c.2).1).run ans (c.1, (ans q c.2).2)

end Prog

@[simp] lemma applyAll_nil (d : D) : applyAll d ([] : List W) = d := rfl
@[simp] lemma applyAll_cons (d : D) (w : W) (ws : List W) :
    applyAll d (w :: ws) = applyAll (Database.apply d w) ws := rfl
@[simp] lemma reserveAll_nil (d : D) : reserveAll d ([] : List W) = d := rfl
@[simp] lemma reserveAll_cons (d : D) (w : W) (ws : List W) :
    reserveAll d (w :: ws) = reserveAll (Database.reserve d w) ws := rfl

lemma applyAll_append (d : D) (us ws : List W) :
    applyAll d (us ++ ws) = applyAll (applyAll d us) ws := by
  simp [applyAll, List.foldl_append]

lemma reserveAll_append (d : D) (us ws : List W) :
    reserveAll d (us ++ ws) = reserveAll (reserveAll d us) ws := by
  simp [reserveAll, List.foldl_append]

/-- What every single write keeps, a series of writes keeps. -/
lemma applyAll_induction {I : D → Prop} {d : D} {ws : List W} (h : I d)
    (hw : ∀ w ∈ ws, ∀ d', I d' → I (Database.apply d' w)) : I (applyAll d ws) := by
  induction ws generalizing d with
  | nil => exact h
  | cons w ws ih => exact ih (hw w (by simp) d h) fun v hv => hw v (by simp [hv])

lemma reserve_applyAll {d : D} {w : W} (vs : List W) (h : Database.reserve d w = d) :
    Database.reserve (applyAll d vs) w = applyAll d vs := by
  induction vs generalizing d with
  | nil => exact h
  | cons v vs ih => exact ih (Database.reserve_stays v h)

/-- What has been written has drawn its identities already. -/
lemma reserveAll_of_forall {d : D} {ws : List W} (h : ∀ w ∈ ws, Database.reserve d w = d) :
    reserveAll d ws = d := by
  induction ws with
  | nil => rfl
  | cons w ws ih =>
    rw [reserveAll_cons, h w (by simp)]
    exact ih fun v hv => h v (by simp [hv])

lemma reserve_of_mem {d : D} {ws : List W} {w : W} (hw : w ∈ ws) :
    Database.reserve (applyAll d ws) w = applyAll d ws := by
  obtain ⟨us, vs, rfl⟩ := List.append_of_mem hw
  rw [applyAll_append, applyAll_cons]
  exact reserve_applyAll vs (Database.reserve_apply _ w)

lemma reserveAll_applyAll (d : D) (ws : List W) : reserveAll (applyAll d ws) ws = applyAll d ws :=
  reserveAll_of_forall fun _ hw => reserve_of_mem hw

/-! ### Rules for programs run alone -/

namespace Tx

@[simp] lemma exec_ret (r : Except ε α) (d : D) :
    (ret r : Tx D W E L ε α).exec d = ([], r) := rfl
@[simp] lemma exec_pure (a : α) (d : D) :
    (pure a : Tx D W E L ε α).exec d = ([], .ok a) := rfl

lemma exec_stmt_ok {s : Stmt D W E L β} {fail : E → ε} {k : β → Tx D W E L ε α} {d : D}
    {ws : List W} {b : β} (h : s.run d = .ok (ws, b)) : (stmt s fail k).exec d =
      (ws ++ ((k b).exec (applyAll d ws)).1, ((k b).exec (applyAll d ws)).2) := by
  rw [exec, h]

lemma exec_stmt_error {s : Stmt D W E L β} {fail : E → ε} {k : β → Tx D W E L ε α} {d : D}
    {e : E} (h : s.run d = .error e) : (stmt s fail k).exec d = ([], .error (fail e)) := by
  rw [exec, h]

@[simp] lemma inside_pure (a : α) (d : D) :
    (pure a : Tx D W E L ε α).inside d = (.ok a, d) := rfl
@[simp] lemma inside_ret (r : Except ε α) (d : D) :
    (ret r : Tx D W E L ε α).inside d = (r, d) := rfl
@[simp] lemma inside_fail (e : ε) (d : D) :
    (fail e : Tx D W E L ε α).inside d = (.error e, d) := rfl

lemma inside_query (s : Stmt D W E L β) (fail : E → ε) (d : D) :
    (query s fail).inside d = match s.run d with
      | .error e => (.error (fail e), d)
      | .ok (ws, b) => (.ok b, applyAll d ws) := by
  rw [query, inside]
  rcases h : s.run d with e | ⟨ws, b⟩
  · rw [exec_stmt_error h]
    rfl
  · rw [exec_stmt_ok h]
    simp

lemma inside_query_ok {s : Stmt D W E L β} {fail : E → ε} {d : D} {ws : List W} {b : β}
    (h : s.run d = .ok (ws, b)) : (query s fail).inside d = (.ok b, applyAll d ws) := by
  rw [inside_query, h]

lemma inside_query_error {s : Stmt D W E L β} {fail : E → ε} {d : D} {e : E}
    (h : s.run d = .error e) : (query s fail).inside d = (.error (fail e), d) := by
  rw [inside_query, h]

lemma exec_bind (x : Tx D W E L ε α) (f : α → Tx D W E L ε β) (d : D) :
    (x >>= f).exec d = match x.exec d with
      | (ws, .error e) => (ws, .error e)
      | (ws, .ok a) => (ws ++ ((f a).exec (applyAll d ws)).1, ((f a).exec (applyAll d ws)).2) := by
  show (x.bind f).exec d = _
  induction x generalizing d with
  | ret r => cases r <;> simp [bind]
  | stmt s fail k ih =>
    rw [bind]
    rcases h : s.run d with e | ⟨ws, b⟩
    · rw [exec_stmt_error h, exec_stmt_error h]
    · rw [exec_stmt_ok h, exec_stmt_ok h, ih]
      rcases hk : (k b).exec (applyAll d ws) with ⟨vs, e | a⟩ <;>
        simp [applyAll_append]

lemma bind_assoc {γ : Type} (x : Tx D W E L ε α) (f : α → Tx D W E L ε β)
    (g : β → Tx D W E L ε γ) : x >>= f >>= g = x >>= fun a => f a >>= g := by
  show (x.bind f).bind g = x.bind fun a => (f a).bind g
  induction x with
  | ret r => cases r <;> rfl
  | stmt s fail k ih =>
    rw [bind, bind, bind]
    exact congrArg _ (funext ih)

/-- A sequence of statements is taken apart at its binds. -/
lemma inside_bind (x : Tx D W E L ε α) (f : α → Tx D W E L ε β) (d : D) :
    (x >>= f).inside d = match x.inside d with
      | (.error e, v) => (.error e, v)
      | (.ok a, v) => (f a).inside v := by
  rw [inside, exec_bind, inside]
  rcases hx : x.exec d with ⟨ws, e | a⟩ <;> simp [inside, applyAll_append]

lemma inside_bind_of_ok {x : Tx D W E L ε α} (f : α → Tx D W E L ε β) {d v : D} {a : α}
    (h : x.inside d = (.ok a, v)) : (x >>= f).inside d = (f a).inside v := by
  rw [inside_bind, h]

/-- A sequence that succeeds has succeeded at each of its parts. -/
lemma inside_bind_ok {x : Tx D W E L ε α} {f : α → Tx D W E L ε β} {d v : D} {b : β}
    (h : (x >>= f).inside d = (.ok b, v)) :
    ∃ a v', x.inside d = (.ok a, v') ∧ (f a).inside v' = (.ok b, v) := by
  rw [inside_bind] at h
  rcases hx : x.inside d with ⟨e | a, v'⟩
  · rw [hx] at h
    simp at h
  · rw [hx] at h
    exact ⟨a, v', rfl, h⟩

lemma run_of_ok {t : Tx D W E L ε α} {d v : D} {a : α} (h : t.inside d = (.ok a, v)) :
    t.run d = (.ok a, v) := by
  rw [inside, Prod.mk.injEq] at h
  rw [run, ← h.2, show t.exec d = ((t.exec d).1, .ok a) from Prod.ext rfl h.1]

/-- A transaction that does not commit leaves the rows as they were. -/
lemma run_of_error {t : Tx D W E L ε α} {d v : D} {e : ε} (h : t.inside d = (.error e, v)) :
    t.run d = (.error e, reserveAll d (t.exec d).1) := by
  rw [inside, Prod.mk.injEq] at h
  rw [run, show t.exec d = ((t.exec d).1, .error e) from Prod.ext rfl h.1]

/-- A transaction that commits ends as it stood before the COMMIT. -/
lemma inside_of_run_ok {t : Tx D W E L ε α} {d v : D} {a : α} (h : t.run d = (.ok a, v)) :
    t.inside d = (.ok a, v) := by
  rcases hin : t.inside d with ⟨e | b, u⟩
  · rw [run_of_error hin] at h
    cases h
  · rw [run_of_ok hin] at h
    exact h

end Tx

namespace Prog

variable {ans : (q : Q) → σ → A q × σ}

@[simp] lemma run_ret (r : Except ε α) (c : D × σ) :
    (ret r : Prog D W E L Q A ε α).run ans c = (r, c) := rfl
@[simp] lemma run_pure (a : α) (c : D × σ) :
    (pure a : Prog D W E L Q A ε α).run ans c = (.ok a, c) := rfl
@[simp] lemma run_fail (e : ε) (c : D × σ) :
    (fail e : Prog D W E L Q A ε α).run ans c = (.error e, c) := rfl

omit [Database D W K] in
lemma bind_assoc {γ : Type} (x : Prog D W E L Q A ε α) (f : α → Prog D W E L Q A ε β)
    (g : β → Prog D W E L Q A ε γ) : x >>= f >>= g = x >>= fun a => f a >>= g := by
  show (x.bind f).bind g = x.bind fun a => (f a).bind g
  induction x with
  | ret r => cases r <;> rfl
  | auto s k ih => exact congrArg (auto s) (funext ih)
  | tx body k ih => exact congrArg (tx body) (funext ih)
  | ask q k ih => exact congrArg (ask q) (funext ih)

lemma run_bind (x : Prog D W E L Q A ε α) (f : α → Prog D W E L Q A ε β) (c : D × σ) :
    (x >>= f).run ans c = match x.run ans c with
      | (.error e, c') => (.error e, c')
      | (.ok a, c') => (f a).run ans c' := by
  show (x.bind f).run ans c = _
  induction x generalizing c with
  | ret r => cases r <;> rfl
  | auto s k ih =>
    rw [bind, run, run]
    rcases s.run c.1 with e | ⟨ws, b⟩ <;> exact ih _ _
  | tx body k ih => exact ih _ _
  | ask q k ih => exact ih _ _

lemma run_bind_of_ok {x : Prog D W E L Q A ε α} (f : α → Prog D W E L Q A ε β) {c c' : D × σ} {a : α}
    (h : x.run ans c = (.ok a, c')) : (x >>= f).run ans c = (f a).run ans c' := by
  rw [run_bind, h]

lemma run_bind_of_error {x : Prog D W E L Q A ε α} (f : α → Prog D W E L Q A ε β) {c c' : D × σ}
    {e : ε} (h : x.run ans c = (.error e, c')) : (x >>= f).run ans c = (.error e, c') := by
  rw [run_bind, h]

lemma run_tried (s : Stmt D W E L β) (c : D × σ) :
    (tried s : Prog D W E L Q A ε _).run ans c = match s.run c.1 with
      | .error e => (.ok (.error e), c)
      | .ok (ws, b) => (.ok (.ok b), applyAll c.1 ws, c.2) := by
  rw [tried, run]
  rcases s.run c.1 with e | ⟨ws, b⟩ <;> rfl

lemma run_query (s : Stmt D W E L β) (fail : E → ε) (c : D × σ) :
    (query s fail : Prog D W E L Q A ε β).run ans c = match s.run c.1 with
      | .error e => (.error (fail e), c)
      | .ok (ws, b) => (.ok b, applyAll c.1 ws, c.2) := by
  rw [query, run]
  rcases s.run c.1 with e | ⟨ws, b⟩ <;> rfl

@[simp] lemma run_transaction (body : Tx D W E L ε β) (c : D × σ) :
    (transaction body : Prog D W E L Q A ε β).run ans c =
      ((body.run c.1).1, (body.run c.1).2, c.2) := rfl

@[simp] lemma run_request (q : Q) (c : D × σ) :
    (request q : Prog D W E L Q A ε (A q)).run ans c =
      (.ok (ans q c.2).1, c.1, (ans q c.2).2) := rfl

end Prog

end Veckomenyn.Txn
