import Veckomenyn.Faults

/-!
Programs that do all of what they do, or nothing.

A program is strict when after a write of its own it cannot fail any more, and fragile when it does
not get past a failure. Whichever statements fail, a strict program that ends in an error has left
the rows as they were, and a fragile one that ends in success has done what it does when nothing
fails.
-/

namespace Veckomenyn.Txn

variable {D W K E L Q : Type} {A : Q → Type} {ε α β σ : Type}

namespace Prog

/-- The statement writes nothing. -/
def ReadOnly (s : Stmt D W E L β) : Prop := ∀ d ws b, s.run d = .ok (ws, b) → ws = []

/-- The program ends in success, whatever its statements answer. -/
def Sure : Prog D W E L Q A ε α → Prop
  | ret r => ∃ a, r = .ok a
  | auto _ k => ∀ r, (k r).Sure
  | tx _ _ => False
  | ask _ k => ∀ a, (k a).Sure

/-- What follows a write is sure. -/
def Strict : Prog D W E L Q A ε α → Prop
  | ret _ => True
  | auto s k => (∀ e, (k (.error e)).Strict) ∧
    ((ReadOnly s ∧ ∀ b, (k (.ok b)).Strict) ∨ ∀ b, (k (.ok b)).Sure)
  | tx _ k => (∀ e, (k (.error e)).Strict) ∧ ∀ a, (k (.ok a)).Sure
  | ask _ k => ∀ a, (k a).Strict

/-- What follows a failure is the error. -/
def Fragile : Prog D W E L Q A ε α → Prop
  | ret _ => True
  | auto _ k => (∀ e, ∃ g, k (.error e) = ret (.error g)) ∧ ∀ b, (k (.ok b)).Fragile
  | tx _ k => (∀ e, ∃ g, k (.error e) = ret (.error g)) ∧ ∀ a, (k (.ok a)).Fragile
  | ask _ k => ∀ a, (k a).Fragile

/-- The program asks nothing of the outside world. -/
def Alone : Prog D W E L Q A ε α → Prop
  | ret _ => True
  | auto _ k => ∀ r, (k r).Alone
  | tx _ k => ∀ r, (k r).Alone
  | ask _ _ => False

/-! ### Rules -/

lemma Sure.bind {x : Prog D W E L Q A ε α} {f : α → Prog D W E L Q A ε β} (hx : x.Sure)
    (hf : ∀ a, (f a).Sure) : (x >>= f).Sure := by
  show (x.bind f).Sure
  induction x with
  | ret r =>
    obtain ⟨a, rfl⟩ := hx
    exact hf a
  | auto s k ih => exact fun r => ih r (hx r)
  | tx body k ih => exact hx.elim
  | ask q k ih => exact fun a => ih a (hx a)

lemma Sure.strict {x : Prog D W E L Q A ε α} (hx : x.Sure) : x.Strict := by
  induction x with
  | ret r => trivial
  | auto s k ih => exact ⟨fun e => ih _ (hx _), Or.inr fun b => hx _⟩
  | tx body k ih => exact hx.elim
  | ask q k ih => exact fun a => ih a (hx a)

/-- What only reads may come before anything strict. -/
lemma Quiet.bind_strict {x : Prog D W E L Q A ε α} {f : α → Prog D W E L Q A ε β} (hx : x.Quiet)
    (hf : ∀ a, (f a).Strict) : (x >>= f).Strict := by
  show (x.bind f).Strict
  induction x with
  | ret r =>
    cases r with
    | ok a => exact hf a
    | error e => trivial
  | auto s k ih => exact ⟨fun e => ih _ (hx.2 _), Or.inl ⟨hx.1, fun b => ih _ (hx.2 _)⟩⟩
  | tx body k ih => exact hx.elim
  | ask q k ih => exact fun a => ih a (hx a)

lemma Quiet.strict {x : Prog D W E L Q A ε α} (hx : x.Quiet) : x.Strict := by
  induction x with
  | ret r => trivial
  | auto s k ih => exact ⟨fun e => ih _ (hx.2 _), Or.inl ⟨hx.1, fun b => ih _ (hx.2 _)⟩⟩
  | tx body k ih => exact hx.elim
  | ask q k ih => exact fun a => ih a (hx a)

/-- What is sure may come after anything strict. -/
lemma Strict.bind_sure {x : Prog D W E L Q A ε α} {f : α → Prog D W E L Q A ε β} (hx : x.Strict)
    (hf : ∀ a, (f a).Sure) : (x >>= f).Strict := by
  show (x.bind f).Strict
  induction x with
  | ret r =>
    cases r with
    | ok a => exact (hf a).strict
    | error e => trivial
  | auto s k ih =>
    refine ⟨fun e => ih _ (hx.1 e), hx.2.imp (fun h => ⟨h.1, fun b => ih _ (h.2 b)⟩) fun h b => ?_⟩
    exact (h b).bind hf
  | tx body k ih => exact ⟨fun e => ih _ (hx.1 e), fun a => (hx.2 a).bind hf⟩
  | ask q k ih => exact fun a => ih a (hx a)

lemma Fragile.bind {x : Prog D W E L Q A ε α} {f : α → Prog D W E L Q A ε β} (hx : x.Fragile)
    (hf : ∀ a, (f a).Fragile) : (x >>= f).Fragile := by
  have hfails {y : Prog D W E L Q A ε α} (hy : ∃ g, y = ret (.error g)) :
      ∃ g, y.bind f = ret (.error g) := by
    obtain ⟨g, rfl⟩ := hy
    exact ⟨g, rfl⟩
  show (x.bind f).Fragile
  induction x with
  | ret r =>
    cases r with
    | ok a => exact hf a
    | error e => trivial
  | auto s k ih => exact ⟨fun e => hfails (hx.1 e), fun b => ih _ (hx.2 b)⟩
  | tx body k ih => exact ⟨fun e => hfails (hx.1 e), fun a => ih _ (hx.2 a)⟩
  | ask q k ih => exact fun a => ih a (hx a)

lemma Alone.bind {x : Prog D W E L Q A ε α} {f : α → Prog D W E L Q A ε β} (hx : x.Alone)
    (hf : ∀ a, (f a).Alone) : (x >>= f).Alone := by
  show (x.bind f).Alone
  induction x with
  | ret r =>
    cases r with
    | ok a => exact hf a
    | error e => trivial
  | auto s k ih => exact fun r => ih r (hx r)
  | tx body k ih => exact fun r => ih r (hx r)
  | ask q k ih => exact hx.elim

lemma sure_pure (a : α) : (pure a : Prog D W E L Q A ε α).Sure := ⟨a, rfl⟩

lemma sure_request (q : Q) : (request q : Prog D W E L Q A ε (A q)).Sure := fun a => ⟨a, rfl⟩

lemma sure_tried (s : Stmt D W E L β) : (tried s : Prog D W E L Q A ε (Except E β)).Sure :=
  fun r => ⟨r, rfl⟩

lemma strict_query (s : Stmt D W E L β) (fail : E → ε) :
    (query s fail : Prog D W E L Q A ε β).Strict :=
  ⟨fun _ => trivial, Or.inr fun b => ⟨b, rfl⟩⟩

lemma strict_transaction (body : Tx D W E L ε β) :
    (transaction body : Prog D W E L Q A ε β).Strict :=
  ⟨fun _ => trivial, fun a => ⟨a, rfl⟩⟩

lemma fragile_query (s : Stmt D W E L β) (fail : E → ε) :
    (query s fail : Prog D W E L Q A ε β).Fragile :=
  ⟨fun e => ⟨fail e, rfl⟩, fun _ => trivial⟩

lemma alone_query (s : Stmt D W E L β) (fail : E → ε) :
    (query s fail : Prog D W E L Q A ε β).Alone := fun r => by cases r <;> trivial

lemma alone_transaction (body : Tx D W E L ε β) :
    (transaction body : Prog D W E L Q A ε β).Alone := fun _ => trivial

lemma fragile_transaction (body : Tx D W E L ε β) :
    (transaction body : Prog D W E L Q A ε β).Fragile :=
  ⟨fun e => ⟨e, rfl⟩, fun _ => trivial⟩

/-! ### Runs -/

variable [Database D W K] {f : ℕ → Option E} {lost : E → ε} {ans : (q : Q) → σ → A q × σ}

lemma Sure.runWith {x : Prog D W E L Q A ε α} (hx : x.Sure) (n : ℕ) (c : D × σ) :
    ∃ a, (x.runWith f lost ans n c).1.1 = .ok a := by
  induction x generalizing n c with
  | ret r => exact hx
  | auto s k ih =>
    rw [Prog.runWith]
    rcases f n with _ | e
    · rcases s.run c.1 with e | ⟨ws, b⟩
      · exact ih _ (hx _) _ _
      · exact ih _ (hx _) _ _
    · exact ih _ (hx _) _ _
  | tx body k ih => exact hx.elim
  | ask q k ih => exact ih _ (hx _) _ _

/-- What asks nothing leaves the world outside as it is. -/
lemma Alone.runWith {x : Prog D W E L Q A ε α} (hx : x.Alone) (n : ℕ) (c : D × σ) :
    (x.runWith f lost ans n c).2.2 = c.2 := by
  induction x generalizing n c with
  | ret r => rfl
  | auto s k ih =>
    rw [Prog.runWith]
    rcases f n with _ | e
    · rcases s.run c.1 with e | ⟨ws, b⟩
      · exact ih _ (hx _) _ _
      · exact ih _ (hx _) _ _
    · exact ih _ (hx _) _ _
  | tx body k ih =>
    rw [Prog.runWith]
    rcases f n with _ | e
    · rcases body.execWith f (n + 1) c.1 with ⟨⟨ws, g | a⟩, m⟩
      · exact ih _ (hx _) _ _
      · rcases hm : f m with _ | e <;> simp only [hm]
        exact ih _ (hx _) _ _
    · rfl
  | ask q k ih => exact hx.elim

/-- **An error undoes everything**: when a strict program ends in an error, nothing has happened to
the database but the drawing of identities. -/
theorem Strict.runWith_error {R : D → D → Prop} (hrefl : ∀ d, R d d)
    (htrans : ∀ {a b c}, R a b → R b c → R a c) (hdraw : ∀ d (ws : List W), R d (reserveAll d ws))
    {x : Prog D W E L Q A ε α} (hx : x.Strict) {n : ℕ} {c : D × σ} {e : ε}
    (h : (x.runWith f lost ans n c).1.1 = .error e) : R c.1 (x.runWith f lost ans n c).2.1 := by
  have hsure {y : Prog D W E L Q A ε α} (hy : y.Sure) (m : ℕ) (c' : D × σ)
      (he : (y.runWith f lost ans m c').1.1 = .error e) : False := by
    obtain ⟨a, ha⟩ : ∃ a, (y.runWith f lost ans m c').1.1 = .ok a := hy.runWith m c'
    rw [he] at ha
    cases ha
  induction x generalizing n c with
  | ret r => exact hrefl _
  | auto s k ih =>
    rw [Prog.runWith] at h ⊢
    rcases hn : f n with _ | g <;> simp only [hn] at h ⊢
    · rcases hs : s.run c.1 with g | ⟨ws, b⟩ <;> simp only [hs] at h ⊢
      · exact ih _ (hx.1 g) h
      · rcases hx.2 with ⟨hread, hk⟩ | hk
        · obtain rfl := hread _ _ _ hs
          exact ih _ (hk b) h
        · exact (hsure (hk b) _ _ h).elim
    · exact ih _ (hx.1 g) h
  | tx body k ih =>
    rw [Prog.runWith] at h ⊢
    rcases hn : f n with _ | g <;> simp only [hn] at h ⊢
    · rcases hexec : body.execWith f (n + 1) c.1 with ⟨⟨ws, g | a⟩, m⟩ <;>
        simp only [hexec] at h ⊢
      · exact htrans (hdraw _ ws) (ih _ (hx.1 g) h)
      · rcases hm : f m with _ | g <;> simp only [hm] at h ⊢
        · exact (hsure (hx.2 a) _ _ h).elim
        · exact hdraw _ ws
    · exact hrefl _
  | ask q k ih => exact ih _ (hx _) h

/-- A transaction that comes to its end with failures does so without them. -/
lemma exec_of_execWith {t : Tx D W E L ε α} {n m : ℕ} {d : D} {ws : List W} {a : α}
    (h : t.execWith f n d = ((ws, .ok a), m)) : t.exec d = (ws, .ok a) := by
  induction t generalizing n m d ws with
  | ret r =>
    cases h
    rfl
  | stmt s fail k ih =>
    rw [Tx.execWith] at h
    rcases hn : f n with _ | e <;> simp only [hn] at h
    · rcases hs : s.run d with e | ⟨us, b⟩ <;> simp only [hs] at h
      · cases h
      · rcases hk : (k b).execWith f (n + 1) (applyAll d us) with ⟨⟨vs, r⟩, m'⟩
        rw [hk] at h
        obtain ⟨⟨rfl, rfl⟩, -⟩ : (us ++ vs = ws ∧ r = .ok a) ∧ m' = m := by simpa using h
        rw [Tx.exec_stmt_ok hs, ih b hk]
    · cases h

/-- **Success is the whole of it**: when a fragile program ends in success, it has done what it does
when no statement fails. -/
theorem Fragile.runWith_ok {x : Prog D W E L Q A ε α} (hx : x.Fragile) {n m : ℕ} {c c' : D × σ}
    {a : α} (h : x.runWith f lost ans n c = ((.ok a, m), c')) : x.run ans c = (.ok a, c') := by
  have hfails {y : Prog D W E L Q A ε α} (hy : ∃ g, y = ret (.error g)) {n : ℕ} {c : D × σ}
      (he : y.runWith f lost ans n c = ((.ok a, m), c')) : False := by
    obtain ⟨g, rfl⟩ := hy
    cases he
  induction x generalizing n c with
  | ret r =>
    cases h
    rfl
  | auto s k ih =>
    rw [Prog.runWith] at h
    rw [Prog.run]
    rcases hn : f n with _ | g <;> simp only [hn] at h
    · rcases hs : s.run c.1 with g | ⟨ws, b⟩ <;> simp only [hs] at h ⊢
      · exact (hfails (hx.1 g) h).elim
      · exact ih _ (hx.2 b) h
    · exact (hfails (hx.1 g) h).elim
  | tx body k ih =>
    rw [Prog.runWith] at h
    rw [Prog.run]
    rcases hn : f n with _ | g <;> simp only [hn] at h
    · rcases hexec : body.execWith f (n + 1) c.1 with ⟨⟨ws, g | b⟩, l⟩ <;> simp only [hexec] at h
      · exact (hfails (hx.1 g) h).elim
      · rcases hm : f l with _ | g <;> simp only [hm] at h
        · have hrun : body.run c.1 = (.ok b, applyAll c.1 ws) := by
            rw [Tx.run, exec_of_execWith hexec]
          rw [hrun]
          exact ih _ (hx.2 b) h
        · cases h
    · cases h
  | ask q k ih => exact ih _ (hx _) h

end Prog

end Veckomenyn.Txn
