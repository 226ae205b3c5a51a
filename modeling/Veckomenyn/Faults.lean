import Veckomenyn.Interleave

/-!
Programs whose statements may fail.

`f` says of the statements a run sends, numbered from the first one on, which fail and with what.
BEGIN and COMMIT are statements among them. A COMMIT that fails has not committed, and a program
whose BEGIN or COMMIT fails ends there.
-/

namespace Veckomenyn.Txn

variable {D W K E L Q : Type} {A : Q → Type} {ε α β σ : Type} [Database D W K]

namespace Tx

/-- The run of a transaction from the statement number `n` on, with the number it has come to. -/
def execWith (f : ℕ → Option E) : Tx D W E L ε α → ℕ → D → (List W × Except ε α) × ℕ
  | ret r, n, _ => (([], r), n)
  | stmt s fail k, n, d => match f n with
    | some e => (([], .error (fail e)), n + 1)
    | none => match s.run d with
      | .error e => (([], .error (fail e)), n + 1)
      | .ok (ws, b) =>
        let r := (k b).execWith f (n + 1) (applyAll d ws)
        ((ws ++ r.1.1, r.1.2), r.2)

/-- The number of statements a transaction sends when none of them is made to fail. -/
def sent : Tx D W E L ε α → D → ℕ
  | ret _, _ => 0
  | stmt s _ k, d => match s.run d with
    | .error _ => 1
    | .ok (ws, b) => (k b).sent (applyAll d ws) + 1

end Tx

namespace Prog

/-- `lost` is what the program ends with when a BEGIN or a COMMIT fails. -/
def runWith (f : ℕ → Option E) (lost : E → ε) (ans : (q : Q) → σ → A q × σ) :
    Prog D W E L Q A ε α → ℕ → D × σ → (Except ε α × ℕ) × D × σ
  | ret r, n, c => ((r, n), c)
  | auto s k, n, c => match f n with
    | some e => (k (.error e)).runWith f lost ans (n + 1) c
    | none => match s.run c.1 with
      | .error e => (k (.error e)).runWith f lost ans (n + 1) c
      | .ok (ws, b) => (k (.ok b)).runWith f lost ans (n + 1) (applyAll c.1 ws, c.2)
  | tx body k, n, c => match f n with
    | some e => ((.error (lost e), n + 1), c)
    | none => match body.execWith f (n + 1) c.1 with
      | ((ws, .error g), m) => (k (.error g)).runWith f lost ans m (reserveAll c.1 ws, c.2)
      | ((ws, .ok a), m) => match f m with
        | some e => ((.error (lost e), m + 1), reserveAll c.1 ws, c.2)
        | none => (k (.ok a)).runWith f lost ans (m + 1) (applyAll c.1 ws, c.2)
  | ask q k, n, c => (k (ans q c.2).1).runWith f lost ans n (c.1, (ans q c.2).2)

end Prog

variable {f : ℕ → Option E} {lost : E → ε} {ans : (q : Q) → σ → A q × σ}

/-! ### Transactions -/

namespace Tx

/-- None of the statements of the transaction fails: it runs as it does alone. -/
lemma execWith_of_none (t : Tx D W E L ε α) {n : ℕ} (d : D)
    (h : ∀ i < t.sent d, f (n + i) = none) : t.execWith f n d = (t.exec d, n + t.sent d) := by
  induction t generalizing n d with
  | ret r => rfl
  | stmt s fail k ih =>
    rcases hs : s.run d with e | ⟨ws, b⟩
    · have hsent : (stmt s fail k).sent d = 1 := by rw [sent, hs]
      have hn : f n = none := h 0 (by omega)
      rw [execWith, hn, hs, exec_stmt_error hs, hsent]
    · have hsent : (stmt s fail k).sent d = (k b).sent (applyAll d ws) + 1 := by rw [sent, hs]
      have hn : f n = none := h 0 (by omega)
      have hk := ih b (n := n + 1) (applyAll d ws) fun i hi => by
        have := h (i + 1) (by omega)
        rwa [show n + (i + 1) = n + 1 + i by omega] at this
      simp only [execWith, hn, hs, hk]
      rw [exec_stmt_ok hs, hsent, show n + 1 + (k b).sent (applyAll d ws) =
        n + ((k b).sent (applyAll d ws) + 1) by omega]

/-- One of them fails: the transaction does not get to its end. -/
lemma execWith_of_some (t : Tx D W E L ε α) {n i : ℕ} (d : D) (hi : i < t.sent d)
    (h : f (n + i) ≠ none) : ∃ ws e m, t.execWith f n d = ((ws, .error e), m) := by
  induction t generalizing n i d with
  | ret r => exact absurd hi (Nat.not_lt_zero i)
  | stmt s fail k ih =>
    rcases hn : f n with _ | e
    · rcases hs : s.run d with e | ⟨ws, b⟩
      · exact ⟨[], fail e, n + 1, by rw [execWith, hn, hs]⟩
      · have hsent : (stmt s fail k).sent d = (k b).sent (applyAll d ws) + 1 := by rw [sent, hs]
        cases i with
        | zero => exact absurd hn h
        | succ i =>
          rw [show n + (i + 1) = n + 1 + i by omega] at h
          obtain ⟨vs, e, m, hk⟩ := ih b (applyAll d ws) (by omega) h
          refine ⟨ws ++ vs, e, m, ?_⟩
          simp only [execWith, hn, hs, hk]
    · exact ⟨[], fail e, n + 1, by rw [execWith, hn]⟩

end Tx

/-! ### Programs -/

namespace Prog

lemma runWith_bind (x : Prog D W E L Q A ε α) (g : α → Prog D W E L Q A ε β) (n : ℕ) (c : D × σ) :
    (x >>= g).runWith f lost ans n c = match x.runWith f lost ans n c with
      | ((.error e, m), c') => ((.error e, m), c')
      | ((.ok a, m), c') => (g a).runWith f lost ans m c' := by
  change (x.bind g).runWith f lost ans n c = _
  induction x generalizing n c with
  | ret r => cases r <;> rfl
  | auto s k ih =>
    rw [bind, runWith, runWith]
    rcases f n with _ | e
    · rcases s.run c.1 with e | ⟨ws, b⟩ <;> exact ih _ _ _
    · exact ih _ _ _
  | tx body k ih =>
    rw [bind, runWith, runWith]
    rcases f n with _ | e
    · rcases body.execWith f (n + 1) c.1 with ⟨⟨ws, e | a⟩, m⟩
      · exact ih _ _ _
      · rcases hm : f m with _ | e
        · simp only [hm]
          exact ih _ _ _
        · simp only [hm]
    · rfl
  | ask q k ih => exact ih _ _ _

lemma runWith_query (s : Stmt D W E L β) (fail : E → ε) (g : β → Prog D W E L Q A ε α) (n : ℕ)
    (c : D × σ) : (query s fail >>= g).runWith f lost ans n c = match f n with
      | some e => ((.error (fail e), n + 1), c)
      | none => match s.run c.1 with
        | .error e => ((.error (fail e), n + 1), c)
        | .ok (ws, b) => (g b).runWith f lost ans (n + 1) (applyAll c.1 ws, c.2) := by
  rw [runWith_bind, query, runWith]
  rcases f n with _ | e
  · rcases s.run c.1 with e | ⟨ws, b⟩ <;> rfl
  · rfl

lemma runWith_transaction (body : Tx D W E L ε α) (n : ℕ) (c : D × σ) :
    (transaction body : Prog D W E L Q A ε α).runWith f lost ans n c = match f n with
      | some e => ((.error (lost e), n + 1), c)
      | none => match body.execWith f (n + 1) c.1 with
        | ((ws, .error g), m) => ((.error g, m), reserveAll c.1 ws, c.2)
        | ((ws, .ok a), m) => match f m with
          | some e => ((.error (lost e), m + 1), reserveAll c.1 ws, c.2)
          | none => ((.ok a, m + 1), applyAll c.1 ws, c.2) := by
  rw [transaction, runWith]
  rcases f n with _ | e
  · rcases body.execWith f (n + 1) c.1 with ⟨⟨ws, g | a⟩, m⟩
    · rfl
    · simp only [runWith]
  · rfl

/-- A transaction of which some statement fails, BEGIN and COMMIT included, leaves the rows as they
were. -/
lemma runWith_transaction_some (lost : E → ε) (ans : (q : Q) → σ → A q × σ)
    (body : Tx D W E L ε α) {i : ℕ} (c : D × σ) (hi : i < body.sent c.1 + 2) (h : f i ≠ none) :
    ∃ e m, ∃ ws : List W, (transaction body : Prog D W E L Q A ε α).runWith f lost ans 0 c =
      ((.error e, m), reserveAll c.1 ws, c.2) := by
  rw [runWith_transaction]
  rcases h0 : f 0 with _ | e
  · rw [Nat.zero_add]
    have hpos : i ≠ 0 := fun hz => h (hz ▸ h0)
    by_cases hcommit : ∀ j < body.sent c.1, f (1 + j) = none
    · -- only the COMMIT is left to fail
      have hi' : i = 1 + body.sent c.1 := by
        by_contra hne
        have := hcommit (i - 1) (by omega)
        rw [show 1 + (i - 1) = i by omega] at this
        exact h this
      rw [Tx.execWith_of_none body c.1 hcommit]
      rcases body.exec c.1 with ⟨ws, g | a⟩
      · exact ⟨g, _, ws, rfl⟩
      · rcases hm : f (1 + body.sent c.1) with _ | e
        · exact absurd (hi' ▸ hm) h
        · exact ⟨lost e, 1 + body.sent c.1 + 1, ws, by simp only [hm]⟩
    · push Not at hcommit
      obtain ⟨j, hj, hf⟩ := hcommit
      obtain ⟨ws, g, m, hexec⟩ := Tx.execWith_of_some body c.1 hj hf
      exact ⟨g, m, ws, by rw [hexec]⟩
  · exact ⟨lost e, 0 + 1, [], rfl⟩

/-- A transaction of which no statement fails does what it does alone. -/
lemma runWith_transaction_none (lost : E → ε) (ans : (q : Q) → σ → A q × σ)
    (body : Tx D W E L ε α) (c : D × σ) (h : ∀ i < body.sent c.1 + 2, f i = none) :
    ∃ m, (transaction body : Prog D W E L Q A ε α).runWith f lost ans 0 c =
        (((body.run c.1).1, m), (body.run c.1).2, c.2) ∧
      ∀ a, (body.run c.1).1 = .ok a → m = body.sent c.1 + 2 := by
  have hcommit (j : ℕ) (hj : j < body.sent c.1) : f (1 + j) = none := h (1 + j) (by omega)
  rw [runWith_transaction, h 0 (by omega), Nat.zero_add, Tx.execWith_of_none body c.1 hcommit,
    Tx.run]
  rcases body.exec c.1 with ⟨ws, g | a⟩
  · exact ⟨_, rfl, fun a ha => by cases ha⟩
  · refine ⟨1 + body.sent c.1 + 1, ?_, fun _ _ => by omega⟩
    simp only [h (1 + body.sent c.1) (by omega)]

/-! ### Reads at the end -/

/-- On the state `c` the program changes nothing. Of its statements, counted from zero, those in
`needs` make it fail when they do; when none of them does, it ends in `P`. -/
def Reads (ans : (q : Q) → σ → A q × σ) (x : Prog D W E L Q A ε α) (c : D × σ) (needs : List ℕ)
    (P : α → Prop) : Prop :=
  ∀ (f : ℕ → Option E) (lost : E → ε) (n : ℕ), (x.runWith f lost ans n c).2 = c ∧
    ((∀ i ∈ needs, f (n + i) = none) → ∃ a, (x.runWith f lost ans n c).1.1 = .ok a ∧ P a) ∧
    ((∃ i ∈ needs, f (n + i) ≠ none) → ∃ e, (x.runWith f lost ans n c).1.1 = .error e)

lemma reads_pure (c : D × σ) {P : α → Prop} {a : α} (h : P a) :
    Reads ans (pure a : Prog D W E L Q A ε α) c [] P :=
  fun _ _ _ => ⟨rfl, fun _ => ⟨a, rfl, h⟩, fun ⟨i, hi, _⟩ => absurd hi (by simp)⟩

variable {c : D × σ} {needs : List ℕ} {P : α → Prop}

lemma reads_query {s : Stmt D W E L β} {fail : E → ε} {g : β → Prog D W E L Q A ε α} {b : β}
    (hs : s.run c.1 = .ok ([], b)) (hg : Reads ans (g b) c needs P) :
    Reads ans (query s fail >>= g) c (0 :: needs.map (· + 1)) P := by
  intro f lost n
  obtain ⟨hc, hok, herr⟩ := hg f lost (n + 1)
  have hshift (i : ℕ) : n + (i + 1) = n + 1 + i := by omega
  rw [runWith_query]
  rcases hn : f n with _ | e
  · simp only [hs, applyAll_nil]
    refine ⟨hc, fun h => hok fun i hi => ?_, ?_⟩
    · rw [← hshift i]
      exact h (i + 1) (List.mem_cons_of_mem _ (List.mem_map_of_mem hi))
    · rintro ⟨i, hi, h⟩
      rcases List.mem_cons.mp hi with rfl | hi
      · exact absurd hn h
      · obtain ⟨j, hj, rfl⟩ := List.mem_map.mp hi
        exact herr ⟨j, hj, hshift j ▸ h⟩
  · refine ⟨rfl, fun h => ?_, fun _ => ⟨fail e, rfl⟩⟩
    have hzero := h 0 (List.mem_cons_self ..)
    rw [Nat.add_zero, hn] at hzero
    cases hzero

/-- A statement whose failure the program goes on from is not needed. -/
lemma reads_tried {s : Stmt D W E L β} {g : Except E β → Prog D W E L Q A ε α} {b : β}
    (hs : s.run c.1 = .ok ([], b)) (hg : ∀ r, Reads ans (g r) c needs P) :
    Reads ans (tried s >>= g) c (needs.map (· + 1)) P := by
  intro f lost n
  have hshift (i : ℕ) : n + (i + 1) = n + 1 + i := by omega
  obtain ⟨r, hr⟩ : ∃ r, (tried s >>= g).runWith f lost ans n c =
      (g r).runWith f lost ans (n + 1) c := by
    rw [runWith_bind, tried, runWith]
    rcases f n with _ | e
    · exact ⟨.ok b, by simp only [hs]; rfl⟩
    · exact ⟨.error e, rfl⟩
  obtain ⟨hc, hok, herr⟩ := hg r f lost (n + 1)
  rw [hr]
  refine ⟨hc, fun h => hok fun i hi => ?_, ?_⟩
  · rw [← hshift i]
    exact h (i + 1) (List.mem_map_of_mem hi)
  · rintro ⟨i, hi, h⟩
    obtain ⟨j, hj, rfl⟩ := List.mem_map.mp hi
    exact herr ⟨j, hj, hshift j ▸ h⟩

/-! ### Invariants -/

/-- The writes of the statement are in `OK`. -/
def Writing (OK : W → Prop) (β : Type) (s : Stmt D W E L β) : Prop :=
  ∀ d ws b, s.run d = .ok (ws, b) → ∀ w ∈ ws, OK w

lemma forall_execWith {OK : W → Prop} {R : α → Prop} {t : Tx D W E L ε α}
    (ht : t.Forall (Writing OK) R) (n : ℕ) (d : D) : ∀ w ∈ (t.execWith f n d).1.1, OK w := by
  induction t generalizing n d with
  | ret r => simp [Tx.execWith]
  | stmt s fail k ih =>
    rw [Tx.execWith]
    rcases f n with _ | e
    · rcases hs : s.run d with e | ⟨ws, b⟩
      · simp
      · intro w hw
        rcases List.mem_append.mp hw with hw | hw
        · exact ht.1 d ws b hs w hw
        · exact ih b (ht.2 b) _ _ w hw
    · simp

/-- **Invariants with failures**: a program whose writes keep `I` keeps it, whichever statements
fail. -/
theorem runWith_keeps {OK : W → Prop} {I : D → Prop}
    (happly : ∀ (d : D) (w : W), OK w → I d → I (Database.apply d w))
    (hreserve : ∀ (d : D) (w : W), I d → I (Database.reserve d w)) {x : Prog D W E L Q A ε α}
    (hx : x.Forall (Writing OK)) (n : ℕ) {c : D × σ} (h : I c.1) :
    I (x.runWith f lost ans n c).2.1 := by
  have hwrites {d : D} {ws : List W} (hws : ∀ w ∈ ws, OK w) (hd : I d) : I (applyAll d ws) :=
    applyAll_induction hd fun w hw d' => happly d' w (hws w hw)
  have hdraws {d : D} (ws : List W) (hd : I d) : I (reserveAll d ws) := by
    induction ws generalizing d with
    | nil => exact hd
    | cons w ws ih => exact ih (hreserve d w hd)
  induction x generalizing n c with
  | ret r => exact h
  | auto s k ih =>
    rw [runWith]
    rcases f n with _ | e
    · rcases hs : s.run c.1 with e | ⟨ws, b⟩
      · exact ih _ (hx.2 _) _ h
      · exact ih _ (hx.2 _) _ (hwrites (hx.1 _ _ _ hs) h)
    · exact ih _ (hx.2 _) _ h
  | tx body k ih =>
    have hbody := forall_execWith (f := f) hx.1 (n + 1) c.1
    rw [runWith]
    rcases f n with _ | e
    · rcases hexec : body.execWith f (n + 1) c.1 with ⟨⟨ws, g | a⟩, m⟩
      · exact ih _ (hx.2 _) _ (hdraws ws h)
      · rw [hexec] at hbody
        rcases hm : f m with _ | e
        · simp only [hm]
          exact ih _ (hx.2 _) _ (hwrites hbody h)
        · simp only [hm]
          exact hdraws ws h
    · exact h
  | ask q k ih => exact ih _ (hx _) _ h

/-- What the statement writes, all of it, keeps `I`. -/
def Keeping (I : D → Prop) (β : Type) (s : Stmt D W E L β) : Prop :=
  ∀ d ws b, s.run d = .ok (ws, b) → I d → I (applyAll d ws)

lemma keeping_execWith {I : D → Prop} {R : α → Prop} {t : Tx D W E L ε α}
    (ht : t.Forall (Keeping I) R) (n : ℕ) {d : D} (h : I d) :
    I (applyAll d (t.execWith f n d).1.1) := by
  induction t generalizing n d with
  | ret r => exact h
  | stmt s fail k ih =>
    rw [Tx.execWith]
    rcases f n with _ | e
    · rcases hs : s.run d with e | ⟨ws, b⟩
      · exact h
      · rw [applyAll_append]
        exact ih b (ht.2 b) _ (ht.1 d ws b hs h)
    · exact h

/-- **Invariants statement by statement**: the writes of one statement may break `I` among
themselves. -/
theorem runWith_keeping {I : D → Prop} (hreserve : ∀ (d : D) (w : W), I d → I (Database.reserve d w))
    {x : Prog D W E L Q A ε α} (hx : x.Forall (Keeping I)) (n : ℕ) {c : D × σ} (h : I c.1) :
    I (x.runWith f lost ans n c).2.1 := by
  have hdraws {d : D} (ws : List W) (hd : I d) : I (reserveAll d ws) := by
    induction ws generalizing d with
    | nil => exact hd
    | cons w ws ih => exact ih (hreserve d w hd)
  induction x generalizing n c with
  | ret r => exact h
  | auto s k ih =>
    rw [runWith]
    rcases f n with _ | e
    · rcases hs : s.run c.1 with e | ⟨ws, b⟩
      · exact ih _ (hx.2 _) _ h
      · exact ih _ (hx.2 _) _ (hx.1 _ _ _ hs h)
    · exact ih _ (hx.2 _) _ h
  | tx body k ih =>
    have hbody := keeping_execWith (f := f) hx.1 (n + 1) h
    rw [runWith]
    rcases f n with _ | e
    · rcases hexec : body.execWith f (n + 1) c.1 with ⟨⟨ws, g | a⟩, m⟩
      · exact ih _ (hx.2 _) _ (hdraws ws h)
      · rw [hexec] at hbody
        rcases hm : f m with _ | e
        · simp only [hm]
          exact ih _ (hx.2 _) _ hbody
        · simp only [hm]
          exact hdraws ws h
    · exact h
  | ask q k ih => exact ih _ (hx _) _ h

/-- A program that writes nothing is made of statements that write nothing. -/
lemma Quiet.forall {C : ∀ β : Type, Stmt D W E L β → Prop}
    (hC : ∀ (β : Type) (s : Stmt D W E L β), (∀ d ws b, s.run d = .ok (ws, b) → ws = []) → C β s)
    {x : Prog D W E L Q A ε α} (hx : x.Quiet) : x.Forall C := by
  induction x with
  | ret r => trivial
  | auto s k ih => exact ⟨hC _ s hx.1, fun r => ih r (hx.2 r)⟩
  | tx body k ih => exact hx.elim
  | ask q k ih => exact fun a => ih a (hx a)

end Prog

end Veckomenyn.Txn
