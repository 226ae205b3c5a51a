import Veckomenyn.Interleave

/-!
Statements that take time.

A statement goes by what is committed when it is sent, and gets to its rows later: it waits
for a row that another client has pending, and goes on with what it finds then. A row that
has been deleted meanwhile is passed over, and a row that has been added is not seen.
-/

namespace Veckomenyn.Txn

variable {D W K E L Q : Type} {A : Q → Type}

/-- `found v d` are the rows of `v`, as they are in `d`. -/
class Versions (D : Type) where
  found : D → D → D

/-- `seen` is what the statement each client has under way goes by. -/
structure Staged (D W E L : Type) (Q : Type) (A : Q → Type) (ι : Type) (ε α : ι → Type) where
  sys : Sys D W E L Q A ι ε α
  seen : ι → Option D

namespace Staged

variable {ι : Type} {ε α : ι → Type} [Database D W K] [Versions D] [Fintype ι] [DecidableEq ι]
  [DecidableEq K] [IsEmpty Q]

def start (d : D) (p : ∀ i, Prog D W E L Q A (ε i) (α i)) : Staged D W E L Q A ι ε α :=
  ⟨Sys.start d p, fun _ => none⟩

/-- The statement `t` of client `i`, sent when `v` was there, gets to its rows; `none` while it
waits for one. -/
def outcome (s : Staged D W E L Q A ι ε α) (i : ι) (v : D) {β : Type} (t : Stmt D W E L β) :
    Option (Except E (List W × β)) :=
  match t.run (reserveAll v s.sys.drawn) with
  | .error e => some (.error e)
  | .ok ([], b) => some (.ok ([], b))
  | .ok (ws, _) =>
    if s.sys.Free i ws then
      match t.run (Versions.found v (s.sys.view i)) with
      | .error e => some (.error e)
      | .ok (ws, b) => if s.sys.Free i ws then some (.ok (ws, b)) else none
    else none

def send (s : Staged D W E L Q A ι ε α) (i : ι) : Staged D W E L Q A ι ε α :=
  { s with seen := Function.update s.seen i (some (s.sys.view i)) }

/-- The statement of client `i` has ended. -/
def ended (s : Staged D W E L Q A ι ε α) (i : ι) (y : Sys D W E L Q A ι ε α) :
    Staged D W E L Q A ι ε α := ⟨y, Function.update s.seen i none⟩

/-- The next step of client `i`, if it has one and need not wait. -/
def step (s : Staged D W E L Q A ι ε α) (i : ι) : Option (Staged D W E L Q A ι ε α) :=
  match s.sys.cl i, s.seen i with
  | .idle (.auto _ _), none => some (s.send i)
  | .inTx _ (.stmt _ _ _) _, none => some (s.send i)
  | .idle (.auto t k), some v => (s.outcome i v t).map fun
    | .error e => s.ended i (s.sys.set i (.idle (k (.error e))))
    | .ok (ws, b) => s.ended i { s.sys.set i (.idle (k (.ok b))) with
        db := applyAll s.sys.db ws, drawn := s.sys.drawn ++ ws }
  | .inTx pend (.stmt t fail body) k, some v => (s.outcome i v t).map fun
    | .error e => s.ended i (s.sys.set i (.inTx pend (.ret (.error (fail e))) k))
    | .ok (ws, b) => s.ended i { s.sys.set i (.inTx (pend ++ ws) (body b) k) with
        drawn := s.sys.drawn ++ ws }
  | _, _ => (s.sys.step i).map fun y => { s with sys := y }

/-- A client that has to wait stays where it is. -/
def next (s : Staged D W E L Q A ι ε α) (i : ι) : Staged D W E L Q A ι ε α := (s.step i).getD s

/-- The clients take steps in the order of a schedule. -/
def run (s : Staged D W E L Q A ι ε α) (sched : List ι) : Staged D W E L Q A ι ε α :=
  sched.foldl next s

variable {s s' : Staged D W E L Q A ι ε α} {i : ι}

/-! ### What a step does -/

omit [IsEmpty Q] in
lemma outcome_ok {v : D} {β : Type} {t : Stmt D W E L β} {ws : List W} {b : β}
    (h : s.outcome i v t = some (.ok (ws, b))) : s.sys.Free i ws ∧
      (ws = [] ∧ t.run (reserveAll v s.sys.drawn) = .ok ([], b) ∨
        t.run (Versions.found v (s.sys.view i)) = .ok (ws, b)) := by
  rw [outcome] at h
  split at h
  · cases h
  · rename_i ht
    cases h
    exact ⟨fun _ _ _ _ _ hw => absurd hw List.not_mem_nil, Or.inl ⟨rfl, ht⟩⟩
  · split_ifs at h
    split at h
    · cases h
    · rename_i ht
      split_ifs at h with hf
      cases h
      exact ⟨hf, Or.inr ht⟩

lemma step_send {l : L} (hc : (s.sys.cl i).next? = some l) (hn : s.seen i = none) :
    s.step i = some (s.send i) := by
  rcases h : s.sys.cl i with ((r | ⟨t, k⟩ | ⟨body, k⟩ | ⟨q, k⟩) |
    ⟨pend, r | ⟨t, fail, body⟩, k⟩)
  · rw [h] at hc
    cases hc
  · rw [step, h, hn]
  · rw [h] at hc
    cases hc
  · exact isEmptyElim q
  · rw [h] at hc
    cases hc
  · rw [step, h, hn]

lemma step_begin {γ δ : Type} {body : Tx D W E L γ δ}
    {k : Except γ δ → Prog D W E L Q A (ε i) (α i)} (hc : s.sys.cl i = .idle (.tx body k)) :
    s.step i = some { s with sys := s.sys.set i (.inTx [] body k) } := by
  rw [step, hc]
  simp only
  rw [Sys.step_begin hc]
  rfl

lemma step_commit {γ δ : Type} {pend : List W} {a : δ}
    {k : Except γ δ → Prog D W E L Q A (ε i) (α i)}
    (hc : s.sys.cl i = .inTx pend (.ret (.ok a)) k) :
    s.step i = some { s with sys := { s.sys.set i (.idle (k (.ok a))) with
      db := applyAll s.sys.db pend, commits := s.sys.commits ++ [i] } } := by
  rw [step, hc]
  simp only
  rw [Sys.step_commit hc]
  rfl

lemma step_ret {r : Except (ε i) (α i)} (hc : s.sys.cl i = .idle (.ret r)) : s.step i = none := by
  rw [step, hc]
  simp only
  rw [Sys.step_ret hc]
  rfl

lemma step_auto {β : Type} {t : Stmt D W E L β} {k : Except E β → Prog D W E L Q A (ε i) (α i)}
    {v : D} (hc : s.sys.cl i = .idle (.auto t k)) (hv : s.seen i = some v)
    (hs : s.step i = some s') :
    (∃ e, s' = s.ended i (s.sys.set i (.idle (k (.error e))))) ∨
      ∃ ws b, s.outcome i v t = some (.ok (ws, b)) ∧
        s' = s.ended i { s.sys.set i (.idle (k (.ok b))) with
          db := applyAll s.sys.db ws, drawn := s.sys.drawn ++ ws } := by
  rw [step, hc, hv] at hs
  simp only [Option.map_eq_some_iff] at hs
  obtain ⟨e | ⟨ws, b⟩, ho, rfl⟩ := hs
  · exact Or.inl ⟨e, rfl⟩
  · exact Or.inr ⟨ws, b, ho, rfl⟩

lemma step_stmt {γ δ β : Type} {pend : List W} {t : Stmt D W E L β} {fail : E → γ}
    {body : β → Tx D W E L γ δ} {k : Except γ δ → Prog D W E L Q A (ε i) (α i)} {v : D}
    (hc : s.sys.cl i = .inTx pend (.stmt t fail body) k) (hv : s.seen i = some v)
    (hs : s.step i = some s') :
    (∃ e, s.outcome i v t = some (.error e) ∧
        s' = s.ended i (s.sys.set i (.inTx pend (.ret (.error (fail e))) k))) ∨
      ∃ ws b, s.outcome i v t = some (.ok (ws, b)) ∧
        s' = s.ended i { s.sys.set i (.inTx (pend ++ ws) (body b) k) with
          drawn := s.sys.drawn ++ ws } := by
  rw [step, hc, hv] at hs
  simp only [Option.map_eq_some_iff] at hs
  obtain ⟨e | ⟨ws, b⟩, ho, rfl⟩ := hs
  · exact Or.inl ⟨e, ho, rfl⟩
  · exact Or.inr ⟨ws, b, ho, rfl⟩

end Staged

end Veckomenyn.Txn
