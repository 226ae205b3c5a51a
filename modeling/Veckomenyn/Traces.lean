import Veckomenyn.Threads

/-!
The sections of one thread among those of all.

A thread's own sections, each on whatever memory it found, are a path through its program. Two
threads' paths, one memory leading through both, are shuffled; a program that reads, writes and
reads is shuffled with another in a few ways only.
-/

namespace Veckomenyn.Remote

variable {ι : Type} [DecidableEq ι] {S Q : Type} {A : Q → Type} {ε α β : Type} {τ : ι → Type}

namespace Proc

/-- Whatever memory each section finds, the sections and how the program ends are in `P`. -/
def Paths : (List (S × S) → Except ε α → Prop) → Proc S Q A ε α → Prop
  | P, ret r => P [] r
  | P, act f k => ∀ s, (k (f s).1).Paths fun l r => P ((s, (f s).2) :: l) r
  | P, send _ k => ∀ a, (k a).Paths P

variable {P P' : List (S × S) → Except ε α → Prop}

lemma Paths.bind {U : List (S × S) → Except ε β → Prop} {x : Proc S Q A ε α}
    {f : α → Proc S Q A ε β} (hx : x.Paths P)
    (ok : ∀ a l, P l (.ok a) → (f a).Paths fun l' r => U (l ++ l') r)
    (error : ∀ e l, P l (.error e) → U l (.error e)) : (x >>= f).Paths U := by
  show (x.bind f).Paths U
  induction x generalizing P U with
  | ret r =>
    cases r with
    | ok a => exact ok a [] hx
    | error e => exact error e [] hx
  | act g k ih => exact fun s => ih _ (hx s) (fun a l h => ok a _ h) fun e l h => error e _ h
  | send q k ih => exact fun a => ih a (hx a) ok error

/-- The program has no sections. -/
def Still : Proc S Q A ε α → Prop
  | ret _ => True
  | act _ _ => False
  | send _ k => ∀ a, (k a).Still

lemma Still.bind {x : Proc S Q A ε α} {f : α → Proc S Q A ε β} (hx : x.Still)
    (hf : ∀ a, (f a).Still) : (x >>= f).Still := by
  show (x.bind f).Still
  induction x with
  | ret r =>
    cases r with
    | ok a => exact hf a
    | error e => trivial
  | act g k ih => exact hx.elim
  | send q k ih => exact fun a => ih a (hx a)

/-- How it ends does not depend on the memory. -/
lemma Still.paths {x : Proc S Q A ε α} {T : Except ε α → Prop} (hx : x.Still) {w : World S Q A}
    (h : x.wp (fun a _ => T (.ok a)) (fun e _ => T (.error e)) w) :
    x.Paths fun l r => l = [] ∧ T r := by
  induction x generalizing w with
  | ret r => cases r <;> exact ⟨rfl, h⟩
  | act g k ih => exact hx.elim
  | send q k ih => exact fun a => ih a (hx a) (h a)

end Proc

namespace Threads

/-- A thread's own sections. -/
def mine (i : ι) (as : List (Act ι S Q A)) : List (S × S) :=
  (as.filter fun a => a.who = i).map fun a => (a.pre, a.post)

lemma mine_snoc_self (i : ι) (as : List (Act ι S Q A)) {a : Act ι S Q A} (h : a.who = i) :
    mine i (as ++ [a]) = mine i as ++ [(a.pre, a.post)] := by
  simp [mine, List.filter_append, h]

lemma mine_snoc_other (i : ι) (as : List (Act ι S Q A)) {a : Act ι S Q A} (h : a.who ≠ i) :
    mine i (as ++ [a]) = mine i as := by
  simp [mine, List.filter_append, h]

variable {P : (i : ι) → List (S × S) → Except ε (τ i) → Prop}

/-- What each thread has before it goes on along a path. -/
def OnPaths (P : (i : ι) → List (S × S) → Except ε (τ i) → Prop) (t : Threads ι S Q A ε τ) : Prop :=
  ∀ i, (t.proc i).Paths fun l r => P i (mine i t.acts ++ l) r

lemma OnPaths.step {t : Threads ι S Q A ε τ} (h : OnPaths P t) (i : ι) (ans : (q : Q) → A q) :
    OnPaths P (t.step i ans) := by
  have hi := h i
  rw [Threads.step]
  split
  · exact h
  · next f k hk =>
    rw [hk] at hi
    intro j
    by_cases hj : j = i
    · subst hj
      simpa [mine_snoc_self] using hi t.mem
    · have hmine := mine_snoc_other j t.acts (a := ⟨i, t.last i, t.mem, (f t.mem).2⟩)
        (fun h => hj h.symm)
      simpa [hj, hmine] using h j
  · next q k hk =>
    rw [hk] at hi
    intro j
    by_cases hj : j = i
    · subst hj
      simpa using hi (ans q)
    · simpa [hj] using h j

/-- **Paths**: in every run, each thread's sections are the beginning of a path through it. -/
theorem paths_run {s : S} {proc : (i : ι) → Proc S Q A ε (τ i)} (h : ∀ i, (proc i).Paths (P i))
    (sched : Schedule ι Q A) : OnPaths P ((start s proc).run sched) :=
  run_induction (show OnPaths P (start s proc) from h) (fun _ i ans ht => ht.step i ans) sched

/-- How a thread has ended is in `P`, with all its sections. -/
lemma OnPaths.result {t : Threads ι S Q A ε τ} (h : OnPaths P t) {i : ι} {r : Except ε (τ i)}
    (hr : t.result i = some r) : P i (mine i t.acts) r := by
  have hi := h i
  unfold Threads.result at hr
  split at hr
  · next r' hp =>
    rw [hp] at hi
    have hi : P i (mine i t.acts ++ []) r' := hi
    rwa [List.append_nil, Option.some.inj hr] at hi
  · exact absurd hr (by simp)

/-! ### Two threads that read, write and read -/

/-- The sections lead from one memory to the other. -/
def LeadsTo : S → List (S × S) → S → Prop
  | s, [], s' => s = s'
  | s, p :: l, s' => p.1 = s ∧ LeadsTo p.2 l s'

variable {as : List (Act ι S Q A)} {i j : ι} {s s' : S} {a b : S × S} {l l' : List (S × S)}

/-- The next section is one of the two threads'. -/
lemma leads_next (two : ∀ k, k = i ∨ k = j) (ne : i ≠ j) (h : Leads s as s')
    (hi : mine i as = a :: l) (hj : mine j as = b :: l') : ∃ x rest, as = x :: rest ∧
      (x.who = i ∧ a.1 = s ∧ Leads a.2 rest s' ∧ mine i rest = l ∧ mine j rest = b :: l' ∨
        x.who = j ∧ b.1 = s ∧ Leads b.2 rest s' ∧ mine i rest = a :: l ∧ mine j rest = l') := by
  cases as with
  | nil => cases hi
  | cons x rest =>
    obtain ⟨hpre, hrest⟩ := h
    refine ⟨x, rest, rfl, ?_⟩
    rcases two x.who with hx | hx
    · have hne : x.who ≠ j := hx ▸ ne
      simp only [mine, List.filter_cons, hx, decide_true, if_true, List.map_cons,
        List.cons.injEq] at hi
      simp only [mine, List.filter_cons, hne, decide_false, Bool.false_eq_true, if_false] at hj
      obtain ⟨rfl, hl⟩ := hi
      exact Or.inl ⟨hx, hpre, hrest, hl, hj⟩
    · have hne : x.who ≠ i := hx ▸ ne.symm
      simp only [mine, List.filter_cons, hx, decide_true, if_true, List.map_cons,
        List.cons.injEq] at hj
      simp only [mine, List.filter_cons, hne, decide_false, Bool.false_eq_true, if_false] at hi
      obtain ⟨rfl, hl⟩ := hj
      exact Or.inr ⟨hx, hpre, hrest, hi, hl⟩

/-- Beside a thread that only reads, the other one runs alone. -/
lemma leads_reads (two : ∀ k, k = i ∨ k = j) (ne : i ≠ j) (h : Leads s as s')
    (hi : ∀ p ∈ mine i as, p.2 = p.1) : LeadsTo s (mine j as) s' := by
  induction as generalizing s with
  | nil => exact h
  | cons x rest ih =>
    obtain ⟨rfl, hrest⟩ := h
    rcases two x.who with hx | hx
    · have hne : x.who ≠ j := hx ▸ ne
      have hxi : mine i (x :: rest) = (x.pre, x.post) :: mine i rest := by
        simp [mine, hx]
      have hxj : mine j (x :: rest) = mine j rest := by simp [mine, hne]
      rw [hxi] at hi
      obtain ⟨hread, hi⟩ := List.forall_mem_cons.mp hi
      have hread : x.post = x.pre := hread
      rw [hxj, ← hread]
      exact ih hrest hi
    · have hne : x.who ≠ i := hx ▸ ne.symm
      have hxi : mine i (x :: rest) = mine i rest := by simp [mine, hne]
      have hxj : mine j (x :: rest) = (x.pre, x.post) :: mine j rest := by
        simp [mine, hx]
      rw [hxi] at hi
      rw [hxj]
      exact ⟨rfl, ih hrest hi⟩

/-- The thread has written when the other one reads. -/
def Ahead (as : List (Act ι S Q A)) (i : ι) : Prop := (as.map Act.who).take 2 = [i, i]

/-- Both have read when the thread writes, before the other one does. -/
def Overtaken (as : List (Act ι S Q A)) (i : ι) : Prop :=
  (∃ c d, c ≠ d ∧ (as.map Act.who).take 2 = [c, d]) ∧ (as.map Act.who)[2]? = some i

/-- The memory each reads first, the memories before and after its write, and the one it reads
last. -/
structure Sections (ι S : Type) where
  found : ι → S
  pre : ι → S
  post : ι → S
  last : ι → S

def Sections.of (x : Sections ι S) (i : ι) : List (S × S) :=
  [(x.found i, x.found i), (x.pre i, x.post i), (x.last i, x.last i)]

/-- `i` writes first, `j` over it. -/
structure WritesFirst (as : List (Act ι S Q A)) (x : Sections ι S) (s s' : S) (i j : ι) :
    Prop where
  found : x.found i = s
  pre : x.pre i = s
  onto : x.pre j = x.post i
  final : s' = x.post j
  order : Ahead as i ∧ x.found j = x.post i ∨ Overtaken as i ∧ x.found j = s

/-- The first section is `i`'s. -/
lemma writesFirst_from {x : Sections ι S} (two : ∀ k, k = i ∨ k = j) (ne : i ≠ j)
    {y : Act ι S Q A} {rest : List (Act ι S Q A)} (hy : y.who = i) (hfound : x.found i = s)
    (h : Leads s rest s') (hi : mine i rest = [(x.pre i, x.post i), (x.last i, x.last i)])
    (hj : mine j rest = x.of j) :
    WritesFirst (y :: rest) x s s' i j ∨ WritesFirst (y :: rest) x s s' j i := by
  have two' : ∀ k, k = j ∨ k = i := fun k => (two k).symm
  obtain ⟨z, rest, rfl, ⟨hz, hpre, h, hi, hj⟩ | ⟨hz, hfound', h, hi, hj⟩⟩ :=
    leads_next two ne h hi hj
  · -- `i` goes on and writes
    have hreads : ∀ p ∈ mine i rest, p.2 = p.1 := by simp [hi]
    obtain ⟨hj₁, hj₂, hlast, hfinal⟩ := hj ▸ leads_reads two ne h hreads
    exact Or.inl ⟨hfound, hpre, hj₂.trans hj₁, hfinal.symm.trans hlast,
      Or.inl ⟨by simp [Ahead, hy, hz], hj₁⟩⟩
  · -- `j` has read, and one of them writes
    have horder : ∃ c d, c ≠ d ∧ [i, j] = [c, d] := ⟨i, j, ne, rfl⟩
    obtain ⟨u, rest, rfl, ⟨hu, hpre, h, hi, hj⟩ | ⟨hu, hpre, h, hi, hj⟩⟩ :=
      leads_next two ne h hi hj
    · have hreads : ∀ p ∈ mine i rest, p.2 = p.1 := by simp [hi]
      obtain ⟨hj₂, hlast, hfinal⟩ := hj ▸ leads_reads two ne h hreads
      exact Or.inl ⟨hfound, hpre.trans hfound', hj₂, hfinal.symm.trans hlast,
        Or.inr ⟨by simpa [Overtaken, hy, hz, hu] using horder, hfound'⟩⟩
    · have hreads : ∀ p ∈ mine j rest, p.2 = p.1 := by simp [hj]
      obtain ⟨hi₂, hlast, hfinal⟩ := hi ▸ leads_reads two' ne.symm h hreads
      exact Or.inr ⟨hfound', hpre.trans hfound', hi₂, hfinal.symm.trans hlast,
        Or.inr ⟨by simpa [Overtaken, hy, hz, hu] using horder, hfound⟩⟩

/-- **Two writers**: one of them writes first, and the other one over it. -/
theorem writesFirst {x : Sections ι S} (two : ∀ k, k = i ∨ k = j) (ne : i ≠ j)
    (h : Leads s as s') (hx : ∀ k, mine k as = x.of k) :
    WritesFirst as x s s' i j ∨ WritesFirst as x s s' j i := by
  have two' : ∀ k, k = j ∨ k = i := fun k => (two k).symm
  obtain ⟨y, rest, rfl, ⟨hy, hfound, h, hi, hj⟩ | ⟨hy, hfound, h, hi, hj⟩⟩ :=
    leads_next two ne h (hx i) (hx j)
  · exact writesFirst_from two ne hy hfound (hfound ▸ h) hi hj
  · exact (writesFirst_from two' ne.symm hy hfound (hfound ▸ h) hj hi).symm

/-- The sections of a run lead from its start to its end. -/
lemma leads_run (s : S) (proc : (i : ι) → Proc S Q A ε (τ i)) (sched : Schedule ι Q A) :
    Leads s ((start s proc).run sched).acts ((start s proc).run sched).mem := by
  have hstart : Leads s (start s proc).acts (start s proc).mem := rfl
  refine run_induction (I := fun t : Threads ι S Q A ε τ => Leads s t.acts t.mem) hstart ?_ sched
  intro t i ans ht
  rw [Threads.step]
  split
  · exact ht
  · exact leads_snoc.mpr ⟨ht, rfl⟩
  · exact ht

end Threads

end Veckomenyn.Remote
