import Veckomenyn.MasterKey
import Veckomenyn.Upserts

/-!
Settings that are changed over and over.

What is read after a history of changes is told by the changes of the kind alone: the last flag that
was given, and under each key the last value that was. Nothing of the encryption shows.
-/

namespace Veckomenyn.Histories

open Crypto Remote Providers Upserts

/-- A change, the time it comes at and the bytes drawn by the process that makes it. -/
structure Change where
  token : Buf 16
  now : String
  kind : Kind
  patch : UpsertPatch

variable (crypt : Option Aead)

def Change.store (c : Change) : Store := ⟨crypt, c.token⟩

def upserts : List Change → Op (List Provider)
  | [] => pure []
  | c :: cs => do
    let p ← (c.store crypt).upsert c.now c.kind c.patch
    let ps ← upserts cs
    pure (p :: ps)

/-! ### What a history says -/

/-- What a change does to a key: nothing, take it away, or give it a value. -/
def Change.puts (key : String) (c : Change) : Option (Option Json) :=
  match c.patch.config key with
  | none => none
  | some (.str v) =>
    if v = (c.store none).sentinel then none else if v = "" then some none else some (some (.str v))
  | some v => some (some v)

def last {α : Type} (f : Change → Option α) (cs : List Change) : Option α :=
  (cs.filterMap f).getLast?

def lastEnabled (cs : List Change) : Bool := (last (fun c => c.patch.enabled) cs).getD false

def lastConfig (cs : List Change) : Config := fun key => (last (Change.puts key) cs).join

/-- A kind after a history of its own changes. -/
def folded (kind : Kind) (cs : List Change) : Except Err Provider :=
  match cs.getLast? with
  | none => .error .notFound
  | some c => .ok ⟨kind, lastEnabled cs, lastConfig cs, c.now⟩

/-- The changes of a kind. -/
def changesOf (kind : Kind) (cs : List Change) : List Change := cs.filter fun c => c.kind = kind

/-- No text of the change looks wrapped. -/
def Clear (c : Change) : Prop := ∀ key v, c.patch.config key = some (.str v) → isEncrypted v = false

/-! ### One change -/

variable {crypt} {kind : Kind} {cs : List Change} {c : Change} {key : String}

lemma last_concat {α : Type} (f : Change → Option α) (cs : List Change) (c : Change) :
    last f (cs ++ [c]) = (f c).or (last f cs) := by
  rw [last, List.filterMap_append, List.getLast?_append]
  cases h : f c <;> simp [h, last]

/-- A change merged into what was there before it. -/
lemma merge_lastConfig (cs : List Change) (c : Change) :
    (c.store crypt).merge (lastConfig cs) c.patch.config = lastConfig (cs ++ [c]) := by
  funext key
  rw [lastConfig, last_concat, Change.puts, Store.merge]
  have hsentinel : (c.store crypt).sentinel = (c.store none).sentinel := rfl
  rw [hsentinel]
  rcases c.patch.config key with _ | _ | _ | _ | v | _ | _
  case some.str =>
    simp only
    split_ifs <;> rfl
  all_goals rfl

lemma enabled_concat (cs : List Change) (c : Change) :
    c.patch.enabled.getD (lastEnabled cs) = lastEnabled (cs ++ [c]) := by
  rw [lastEnabled, lastEnabled, last_concat]
  cases c.patch.enabled <;> rfl

/-- Clear changes leave no text that looks wrapped. -/
lemma lastConfig_clear (h : ∀ c ∈ cs, Clear c) {v : String}
    (hv : lastConfig cs key = some (.str v)) : isEncrypted v = false := by
  obtain ⟨c, hc, hput⟩ : ∃ c ∈ cs, c.puts key = some (some (.str v)) := by
    rw [lastConfig, Option.join_eq_some_iff] at hv
    simpa using List.mem_of_getLast? hv
  rw [Change.puts] at hput
  split at hput
  · cases hput
  · next t ht =>
    split_ifs at hput
    · cases hput
    · exact h c hc key v (ht.trans (Option.some.inj hput))
  · next j hj hp =>
    cases hput
    exact absurd rfl (hj v)

/-- A config in which nothing looks wrapped reads as it is. -/
lemma decryptSecrets_clear {s : Store} {config : Config}
    (h : ∀ key v, config key = some (.str v) → isEncrypted v = false) :
    s.decryptSecrets kind config = config := by
  funext key
  rw [decryptSecrets_apply]
  rcases hv : config key with _ | _ | _ | _ | v | _ | _
  case some.str => exact congrArg some (reads_plain (h key v hv))
  case none => rfl
  all_goals
    unfold reads
    split
    · rfl
    · split_ifs <;> rfl

lemma current_folded (kind : Kind) (cs : List Change) :
    Store.current (folded kind cs) = .ok (lastConfig cs, lastEnabled cs) := by
  rw [folded]
  rcases hlast : cs.getLast? with _ | c
  · rw [List.getLast?_eq_none_iff] at hlast
    subst hlast
    rfl
  · rfl

/-- What every kind reads as tells the history. -/
def Reads (crypt : Option Aead) (t : Table) (cs : List Change) : Prop :=
  ∀ token kind, Store.found ⟨crypt, token⟩ t kind = folded kind (changesOf kind cs)

lemma reads_empty (crypt : Option Aead) : Reads crypt Table.empty [] := fun _ _ => rfl

/-- One more change is one more in its kind's history. -/
lemma Reads.written (h : ∀ d ∈ cs ++ [c], Clear d) {t u : Table} (ht : Reads crypt t cs)
    (hu : Written (c.store crypt) c.now c.kind c.patch
      (lastConfig (changesOf c.kind cs), lastEnabled (changesOf c.kind cs)) t u) :
    Reads crypt u (cs ++ [c]) := by
  intro token kind
  by_cases hkind : kind = c.kind
  · subst hkind
    have hchanges : changesOf c.kind (cs ++ [c]) = changesOf c.kind cs ++ [c] := by
      simp [changesOf]
    have hclear : ∀ d ∈ changesOf c.kind cs ++ [c], Clear d := by
      rw [← hchanges]
      exact fun d hd => h d (List.mem_filter.mp hd).1
    have hfound : Store.found ⟨crypt, token⟩ u c.kind = _ := hu.found
    rw [hfound, updated, merge_lastConfig, enabled_concat,
      decryptSecrets_clear fun _ _ hv => lastConfig_clear hclear hv, hchanges, folded,
      List.getLast?_concat]
  · obtain ⟨stored, -, rfl⟩ := hu
    have hchanges : changesOf kind (cs ++ [c]) = changesOf kind cs := by
      simp [changesOf, Ne.symm hkind]
    rw [hchanges, ← ht token kind, Store.found, Store.found, Table.find?_put_of_ne hkind]

/-! ### A history -/

lemma wp_upserts (cs ds : List Change) (h : ∀ c ∈ cs ++ ds, Clear c) {w : World Table ℕ Buf}
    (hw : Reads crypt w.mem cs) : (upserts crypt ds).wp
      (fun _ w' => Reads crypt w'.mem (cs ++ ds)) (fun _ _ => False) w := by
  induction ds generalizing cs w with
  | nil => simpa [upserts] using hw
  | cons c ds ih =>
    have hcurrent : Store.current (Store.found (c.store crypt) w.mem c.kind) =
        .ok (lastConfig (changesOf c.kind cs), lastEnabled (changesOf c.kind cs)) := by
      rw [Change.store, hw c.token c.kind, current_folded]
    rw [List.append_cons] at h ⊢
    refine Proc.wp_bind_of (wp_upsert (c.store crypt) c.now c.kind c.patch w) ?_ ?_
    · rintro p w₁ ⟨row, hrow, -, hwritten⟩
      obtain rfl := Except.ok.inj (hcurrent.symm.trans hrow)
      have hw₁ := hw.written (fun d hd => h d (List.mem_append_left ds hd)) hwritten
      exact Proc.wp_bind_of (ih (cs ++ [c]) h hw₁) (fun ps w₂ h₂ => h₂) fun e w₂ h₂ => h₂
    · rintro e w₁ ⟨he, -⟩
      rw [hcurrent] at he
      cases he

lemma run_get (s : Store) (kind : Kind) (ans : ℕ → (n : ℕ) → Buf n) (w : World Table ℕ Buf) :
    (s.get kind).run ans w = (s.found w.mem kind, w) := rfl

/-- **Settings after a history**: each kind reads as the history of its own changes says, whatever
the key and the random bytes are. -/
theorem get_folded (crypt : Option Aead) (cs : List Change) (h : ∀ c ∈ cs, Clear c)
    (ans : ℕ → (n : ℕ) → Buf n) :
    ∃ ps w, (upserts crypt cs).run ans ⟨Table.empty, []⟩ = (.ok ps, w) ∧
      ∀ token kind, (Store.get ⟨crypt, token⟩ kind).run ans w =
        (folded kind (changesOf kind cs), w) := by
  have hrun := Proc.wp_run
    (wp_upserts (w := ⟨Table.empty, []⟩) [] cs h (reads_empty crypt)) ans
  rcases hr : (upserts crypt cs).run ans ⟨Table.empty, []⟩ with ⟨e | ps, w⟩ <;> rw [hr] at hrun
  · exact hrun.elim
  · refine ⟨ps, w, rfl, fun token kind => ?_⟩
    rw [run_get, hrun token kind]
    rfl

/-- A user name and a password, and then no user name and the mask of the password. -/
def signedUp (token : Buf 16) : List Change :=
  [⟨token, "10:00", kindWillys, ⟨some true, fun key =>
      if key = "username" then some (.str "198001011234")
      else if key = "password" then some (.str "hunter2") else none⟩⟩,
    ⟨token, "11:00", kindWillys, ⟨none, fun key =>
      if key = "username" then some (.str "")
      else if key = "password" then some (.str (Store.sentinel ⟨none, token⟩)) else none⟩⟩]

lemma clear_signedUp (token : Buf 16) : ∀ c ∈ signedUp token, Clear c := by
  intro c hc key v hv
  rw [signedUp, List.mem_cons, List.mem_singleton] at hc
  rcases hc with rfl | rfl <;> simp only at hv <;> split_ifs at hv <;> cases hv
  · decide
  · decide
  · decide
  · exact isEncrypted_sentinel ⟨none, token⟩

lemma folded_signedUp (token : Buf 16) :
    folded kindWillys (changesOf kindWillys (signedUp token)) = .ok ⟨kindWillys, true,
      fun key => if key = "password" then some (.str "hunter2") else none, "11:00"⟩ := by
  have hchanges : changesOf kindWillys (signedUp token) = signedUp token := by
    simp [changesOf, signedUp]
  have hmask : Store.sentinel ⟨none, token⟩ ≠ "hunter2" := by
    intro h
    have hlist := toList_sentinel ⟨none, token⟩
    rw [h] at hlist
    simp at hlist
  rw [hchanges, folded]
  refine congrArg Except.ok ?_
  congr 1
  funext key
  by_cases hu : key = "username"
  · subst hu
    simp [lastConfig, last, signedUp, Change.puts, Change.store, (sentinel_ne_empty _).symm]
  · by_cases hp : key = "password"
    · subst hp
      simp [lastConfig, last, signedUp, Change.puts, Change.store, hmask.symm]
    · simp [lastConfig, last, signedUp, Change.puts, hu, hp]

theorem get_folded_signedUp :
    ∃ ps w, (upserts (some (tagged 0)) (signedUp (MasterKey.zeros 16))).run
        (fun _ => MasterKey.zeros) ⟨Table.empty, []⟩ = (.ok ps, w) ∧
      ∀ token, (Store.get ⟨some (tagged 0), token⟩ kindWillys).run (fun _ => MasterKey.zeros) w =
        (.ok ⟨kindWillys, true, fun key => if key = "password" then some (.str "hunter2") else none,
          "11:00"⟩, w) := by
  obtain ⟨ps, w, hrun, hget⟩ := get_folded (some (tagged 0)) (signedUp (MasterKey.zeros 16))
    (clear_signedUp _) fun _ => MasterKey.zeros
  refine ⟨ps, w, hrun, fun token => ?_⟩
  rw [hget token kindWillys, folded_signedUp]

end Veckomenyn.Histories
