import Veckomenyn.Sealing
import Veckomenyn.SideBySide

/-!
A client sends back the config it was shown.

The page outlives the process: the server may have been started again since, with another sentinel.
Then the sentinel the page holds is a text like any other.
-/

namespace Veckomenyn.Echo

open Crypto Remote Providers SideBySide Upserts

/-! ### Tables the server has written -/

/-- The tables that requests lead to, each answered with whatever key the process had. -/
inductive Reached : Table → Prop where
  | empty : Reached Table.empty
  | step {crypt : Option Aead} {v : Visit} {t u : Table} (h : Reached t) (hl : Leaves crypt v t u) :
    Reached u

/-- What a table holds for a kind is a known kind's config. -/
def Formed (t : Table) : Prop :=
  ∀ r ∈ t.rows, (kindInfoFor r.kind).isNone = false ∧ ∃ config, r.configJson = .obj config

lemma Formed.leaves {crypt : Option Aead} {v : Visit} {t u : Table} (h : Formed t)
    (hl : Leaves crypt v t u) : Formed u := by
  unfold Leaves at hl
  cases hreq : v.request with
  | list =>
    simp only [hreq] at hl
    exact hl ▸ h
  | patch kind body =>
    simp only [hreq] at hl
    split_ifs at hl with hk
    · exact hl ▸ h
    · cases body with
      | none => exact hl ▸ h
      | some patch =>
        cases hrow : Store.current (Store.found ⟨crypt, v.token⟩ t kind) with
        | error e =>
          simp only [hrow] at hl
          exact hl ▸ h
        | ok row =>
          simp only [hrow] at hl
          obtain ⟨stored, -, rfl⟩ := hl
          intro r hr
          rcases Table.mem_put.mp hr with ⟨hr, -⟩ | rfl
          · exact h r hr
          · exact ⟨Bool.eq_false_iff.mpr hk, stored, rfl⟩

lemma Reached.formed {t : Table} (h : Reached t) : Formed t := by
  induction h with
  | empty => exact fun r hr => absurd hr List.not_mem_nil
  | step h hl ih => exact ih.leaves hl

/-! ### The echo -/

/-- The config a page takes from the list. -/
def shown (kind : Kind) : Answer → Config
  | .providers _ ps _ =>
    match ps.find? fun p => p.kind = kind with
    | some p => p.config
    | none => fun _ => none
  | _ => fun _ => none

variable (crypt : Option Aead) (collate : Kind → Kind → Bool) (kind : Kind) (enabled : Option Bool)
  (first : Buf 16) (restarts : List (Buf 16)) (now : String)

/-- The process that answers after the restarts. -/
def lastToken : Buf 16 := restarts.getLastD first

/-- The page is shown the list, the server is started again any number of times, and the page sends
the config back. -/
def echo : Op Answer := do
  let list ← handle crypt collate ⟨first, now, .list⟩
  handle crypt collate
    ⟨lastToken first restarts, now, .patch kind (some ⟨enabled, shown kind list⟩)⟩

lemma wp_echo (w : World Table ℕ Buf) : (echo crypt collate kind enabled first restarts now).wp
    (fun _ w' => Leaves crypt ⟨lastToken first restarts, now, .patch kind
      (some ⟨enabled, shown kind (answer crypt collate ⟨first, now, .list⟩ w.mem)⟩)⟩ w.mem w'.mem)
    (fun _ _ => False) w := by
  refine Proc.wp_bind_of (wp_handle crypt collate ⟨first, now, .list⟩ w) ?_ (fun e w₁ h => h)
  rintro a w₁ ⟨rfl, hmem⟩
  have hmem : w₁.mem = w.mem := hmem
  refine Proc.wp_mono (fun a w₂ h => ?_) (fun e w₂ h => h) (wp_handle crypt collate _ w₁)
  exact hmem ▸ h.2

variable {crypt collate kind enabled first restarts now} {t : Table}

/-- The page is shown the row, masked. -/
lemma shown_list (ht : Formed t) {r : Row} (hr : r ∈ t.rows) {config : Config}
    (hc : r.configJson = .obj config) :
    shown r.kind (answer crypt collate ⟨first, now, .list⟩ t) =
      (Store.mask ⟨crypt, first⟩ ⟨r.kind, r.enabled,
        Store.decryptSecrets ⟨crypt, first⟩ r.kind config, r.updatedAt⟩).config := by
  let s : Store := ⟨crypt, first⟩
  have read (x : Row) (hx : x ∈ t.rows) : ∃ p, s.provider x = .ok p := by
    obtain ⟨-, config, hconfig⟩ := ht x hx
    exact ⟨_, by rw [Store.provider, hconfig]; rfl⟩
  have hkind {x : Row} {p : Provider} (h : s.provider x = .ok p) : x.kind = p.kind := by
    unfold Store.provider at h
    cases hu : Store.unmarshal x.configJson with
    | error e => rw [hu] at h; cases h
    | ok config => rw [hu] at h; cases h; rfl
  let rows := t.rows.mergeSort fun a b => collate a.kind b.kind
  have hperm : rows.Perm t.rows := List.mergeSort_perm _ _
  obtain ⟨ps, hps, hall⟩ := forall₂_mapM fun x hx => read x (hperm.mem_iff.mp hx)
  have hlist : s.list collate t = .ok ps := hps
  have hfind : rows.find? (fun x => x.kind = r.kind) = some r :=
    find?_of_nodup ((hperm.map Row.kind).nodup_iff.mpr t.nodup) (hperm.mem_iff.mpr hr)
  have hrel := rel_find? hall (f := fun x => x.kind = r.kind) (g := fun p => p.kind = r.kind)
    fun x p h => by rw [hkind h]
  rw [hfind] at hrel
  generalize hp : ps.find? (fun p => p.kind = r.kind) = found at hrel
  cases hrel with
  | @some _ p hprovider =>
    have hprov : s.provider r =
        .ok ⟨r.kind, r.enabled, s.decryptSecrets r.kind config, r.updatedAt⟩ := by
      rw [Store.provider, hc]
      rfl
    have hp' : p = ⟨r.kind, r.enabled, s.decryptSecrets r.kind config, r.updatedAt⟩ :=
      Except.ok.inj (hprovider.symm.trans hprov)
    have hmasked : ((withKnown ps).map s.mask).find? (fun p => p.kind = r.kind) =
        some (s.mask p) := by
      rw [List.find?_map]
      have hcomp : (fun p => decide (p.kind = r.kind)) ∘ s.mask = fun p => decide (p.kind = r.kind) :=
        rfl
      rw [hcomp, withKnown, List.find?_append, hp]
      rfl
    show shown r.kind (s.listed (s.list collate t)) = _
    rw [hlist, Store.listed, shown, hmasked, hp']

/-- A masked text, merged into what it was taken from and read. -/
lemma echoed_value {s s' : Store} (hs : s.crypt = s'.crypt) {config : Config} {key : String}
    {v : String} (hv : config key = some (.str v)) (enabled : Bool) (updatedAt : String) :
    s'.decryptSecrets kind (s'.merge config (s.mask ⟨kind, enabled, config, updatedAt⟩).config) key =
      config key ↔ v ≠ "" ∧ reads s.crypt kind key (.str v) = .str v ∧
        (isSecretField kind key = true → s.sentinel = s'.sentinel ∨ v = s.sentinel) := by
  have hsent : reads s.crypt kind key (.str s.sentinel) = .str s.sentinel :=
    reads_plain (isEncrypted_sentinel s)
  rw [decryptSecrets_apply, ← hs]
  by_cases he : v = ""
  · -- nothing is sent as nothing, and takes the key away
    subst he
    have hne : ("" : String) ≠ s'.sentinel := (sentinel_ne_empty s').symm
    by_cases hk : isSecretField kind key = true <;>
      simp [Store.merge, Store.mask, hv, hk, hne]
  · by_cases hk : isSecretField kind key = true
    · by_cases hss : s.sentinel = s'.sentinel
      · -- the sentinel leaves the secret as it is
        simp [Store.merge, Store.mask, hv, hk, he, hss]
      · -- the old sentinel takes the secret's place
        have hmerge : s'.merge config (s.mask ⟨kind, enabled, config, updatedAt⟩).config key =
            some (.str s.sentinel) := by
          simp [Store.merge, Store.mask, hv, hk, he, hss, sentinel_ne_empty]
        rw [hmerge, hv, Option.map_some, hsent]
        constructor
        · intro h
          obtain rfl : s.sentinel = v := by simpa using h
          exact ⟨he, hsent, fun _ => Or.inr rfl⟩
        · rintro ⟨-, -, h⟩
          rw [(h hk).resolve_left hss]
    · have hmerge : s'.merge config (s.mask ⟨kind, enabled, config, updatedAt⟩).config key =
          some (.str v) := by
        by_cases hsv : v = s'.sentinel <;> simp [Store.merge, Store.mask, hv, hk, he, hsv]
      rw [hmerge, hv, Option.map_some]
      simp [he, hk]

/-- A config whose values are texts. -/
def Texts (config : Config) : Prop := ∀ key v, config key = some v → ∃ s, v = .str s

lemma Texts.decryptSecrets {s : Store} {config : Config} (h : Texts config) :
    Texts (s.decryptSecrets kind config) := by
  intro key v hv
  rw [decryptSecrets_apply] at hv
  obtain ⟨w, hw, rfl⟩ := Option.map_eq_some_iff.mp hv
  obtain ⟨text, rfl⟩ := h key w hw
  unfold reads
  split
  · exact ⟨text, rfl⟩
  · split_ifs
    · exact ⟨_, rfl⟩
    · exact ⟨text, rfl⟩

/-- The condition under which an echo keeps a config: nothing reads as the empty text or unwraps
further when it is read again, and the sentinel of a secret is still the server's. -/
def EchoKeeps (s s' : Store) (kind : Kind) (config : Config) : Prop :=
  ∀ key v, config key = some (.str v) →
    v ≠ "" ∧ reads s.crypt kind key (.str v) = .str v ∧
      (isSecretField kind key = true → s.sentinel = s'.sentinel ∨ v = s.sentinel)

lemma echoed_config {s s' : Store} (hs : s.crypt = s'.crypt) {config : Config} (h : Texts config)
    (enabled : Bool) (updatedAt : String) :
    s'.decryptSecrets kind (s'.merge config (s.mask ⟨kind, enabled, config, updatedAt⟩).config) =
      config ↔ EchoKeeps s s' kind config := by
  constructor
  · intro heq key v hv
    exact (echoed_value hs hv enabled updatedAt).mp (congrFun heq key)
  · intro hkeeps
    funext key
    cases hv : config key with
    | none => rw [decryptSecrets_apply]; simp [Store.merge, Store.mask, hv]
    | some j =>
      obtain ⟨v, rfl⟩ := h key j hv
      rw [← hv]
      exact (echoed_value hs hv enabled updatedAt).mpr (hkeeps key v hv)

/-- One echo. -/
lemma leaves_echo (ht : Formed t) {r : Row} (hr : r ∈ t.rows) {config : Config}
    (hc : r.configJson = .obj config) (htexts : Texts config) {u : Table}
    (hl : Leaves crypt ⟨lastToken first restarts, now, .patch r.kind
      (some ⟨enabled, shown r.kind (answer crypt collate ⟨first, now, .list⟩ t)⟩)⟩ t u) :
    configOf ⟨crypt, first⟩ u r.kind = configOf ⟨crypt, first⟩ t r.kind ↔
      EchoKeeps ⟨crypt, first⟩ ⟨crypt, lastToken first restarts⟩ r.kind
        (configOf ⟨crypt, first⟩ t r.kind) := by
  let s : Store := ⟨crypt, first⟩
  let s' : Store := ⟨crypt, lastToken first restarts⟩
  have hfound : s.found t r.kind = _ := found_of_mem hr hc
  have hsame : s.crypt = s'.crypt := rfl
  have hrow : Store.current (Store.found ⟨crypt, lastToken first restarts⟩ t r.kind) =
      .ok (s.decryptSecrets r.kind config, r.enabled) := by
    rw [found_of_mem hr hc]
    rfl
  have hconfig : configOf s t r.kind = s.decryptSecrets r.kind config := by
    rw [configOf, hfound]
  simp only [Leaves, (ht r hr).1, Bool.false_eq_true, if_false, hrow] at hl
  have hafter : configOf s u r.kind = s'.decryptSecrets r.kind
      (s'.merge (s.decryptSecrets r.kind config)
        (s.mask ⟨r.kind, r.enabled, s.decryptSecrets r.kind config, r.updatedAt⟩).config) := by
    have hf := hl.found
    rw [shown_list ht hr hc] at hf
    show configOf s' u r.kind = _
    rw [configOf, hf]
    rfl
  rw [hconfig, hafter]
  exact echoed_config hsame htexts.decryptSecrets r.enabled r.updatedAt

lemma run_echo (enabled : Option Bool) (ans : ℕ → (n : ℕ) → Buf n) :
    Leaves crypt ⟨lastToken first restarts, now, .patch kind
      (some ⟨enabled, shown kind (answer crypt collate ⟨first, now, .list⟩ t)⟩)⟩ t
      ((echo crypt collate kind enabled first restarts now).run ans ⟨t, []⟩).2.mem := by
  have hwp := Proc.wp_run (wp_echo crypt collate kind enabled first restarts now ⟨t, []⟩) ans
  rcases hrun : (echo crypt collate kind enabled first restarts now).run ans ⟨t, []⟩ with
    ⟨e | a, w⟩ <;> rw [hrun] at hwp
  · exact hwp.elim
  · exact hwp

/-- **The echo of a mask**: it leaves a row as it was, read, exactly when no value reads as the empty
text or unwraps further, and the sentinels of its secrets are still the server's. -/
theorem echo_keeps_iff (h : Reached t) {r : Row} (hr : r ∈ t.rows) {config : Config}
    (hc : r.configJson = .obj config) (htexts : Texts config) (ans : ℕ → (n : ℕ) → Buf n) :
    configOf ⟨crypt, first⟩
      ((echo crypt collate r.kind enabled first restarts now).run ans ⟨t, []⟩).2.mem r.kind =
        configOf ⟨crypt, first⟩ t r.kind ↔
      EchoKeeps ⟨crypt, first⟩ ⟨crypt, lastToken first restarts⟩ r.kind
        (configOf ⟨crypt, first⟩ t r.kind) :=
  leaves_echo h.formed hr hc htexts (run_echo enabled ans)

/-! ### The shop's password -/

open Sealing MasterKey

def sealedHunter : Config := fun key =>
  if key = "username" then some (.str "198001011234")
  else if key = "password" then some (.str ((tagged 0).encrypt (zeros nonceSize) "hunter2"))
  else none

def shopRow : Row := ⟨kindWillys, true, .obj sealedHunter, ""⟩

def signedUp : Table := Table.empty.put shopRow

lemma texts_sealedHunter : Texts sealedHunter := by
  intro key v hv
  unfold sealedHunter at hv
  split_ifs at hv
  · exact ⟨_, (Option.some.inj hv).symm⟩
  · exact ⟨_, (Option.some.inj hv).symm⟩

lemma stored_hunter : StoredAs (some (tagged 0)) kindWillys
    (Store.merge ⟨some (tagged 0), zeros 16⟩ (fun _ => none) hunter) sealedHunter := by
  have hu : ¬ declared kindWillys "username" := by decide
  have hp : declared kindWillys "password" := by decide
  intro key
  by_cases h : key = "username"
  · subst h
    refine .some ?_
    simp only [Stored, hu, if_false]
  · by_cases h' : key = "password"
    · subst h'
      refine .some ?_
      simp only [Stored, hp, if_true]
      exact .plain _ (by decide) (by decide)
    · simp only [Store.merge, hunter, sealedHunter, h, h', if_false]
      exact .none

lemma reached_signedUp : Reached signedUp :=
  @Reached.step (some (tagged 0)) (signUp (zeros 16)) _ _ .empty ⟨sealedHunter, stored_hunter, rfl⟩

lemma configOf_signedUp (token : Buf 16) :
    configOf ⟨some (tagged 0), token⟩ signedUp kindWillys = hunter := by
  have hu : ¬ declared kindWillys "username" := by decide
  have hp : declared kindWillys "password" := by decide
  have hf : Store.found ⟨some (tagged 0), token⟩ signedUp kindWillys = _ :=
    found_of_mem (r := shopRow) (List.mem_singleton.mpr rfl) rfl
  rw [configOf, hf]
  funext key
  show Store.decryptSecrets ⟨some (tagged 0), token⟩ kindWillys sealedHunter key = hunter key
  rw [decryptSecrets_apply]
  by_cases h : key = "username"
  · subst h
    simp [sealedHunter, hunter, reads, hu]
  · by_cases h' : key = "password"
    · subst h'
      simp [sealedHunter, hunter, reads, hp, unwrapped]
    · simp [sealedHunter, hunter, h, h']

/-- Without a restart the password stays. -/
theorem echo_keeps_signedUp : configOf ⟨some (tagged 0), zeros 16⟩
    ((echo (some (tagged 0)) (fun _ _ => true) kindWillys none (zeros 16) [] "").run
      (fun _ => zeros) ⟨signedUp, []⟩).2.mem kindWillys =
    configOf ⟨some (tagged 0), zeros 16⟩ signedUp kindWillys := by
  refine (echo_keeps_iff reached_signedUp (r := shopRow) (List.mem_singleton.mpr rfl) rfl
    texts_sealedHunter (fun _ => zeros)).mpr fun key v hv => ?_
  have hv : hunter key = some (.str v) := configOf_signedUp (zeros 16) ▸ hv
  unfold hunter at hv
  split_ifs at hv
  · cases hv
    exact ⟨by decide, reads_plain (by decide), fun _ => Or.inl rfl⟩
  · cases hv
    exact ⟨by decide, reads_plain (by decide), fun _ => Or.inl rfl⟩

def ones : Buf 16 := ⟨List.replicate 16 1, List.length_replicate⟩

/-- After one restart the old sentinel is the password. -/
theorem not_echo_keeps : Reached signedUp ∧ configOf ⟨some (tagged 0), zeros 16⟩
    ((echo (some (tagged 0)) (fun _ _ => true) kindWillys none (zeros 16) [ones] "").run
      (fun _ => zeros) ⟨signedUp, []⟩).2.mem kindWillys ≠
    configOf ⟨some (tagged 0), zeros 16⟩ signedUp kindWillys := by
  refine ⟨reached_signedUp, fun heq => ?_⟩
  have hkeeps := (leaves_echo reached_signedUp.formed (r := shopRow) (List.mem_singleton.mpr rfl)
    rfl texts_sealedHunter (run_echo none (fun _ => zeros))).mp heq
  have hv : configOf ⟨some (tagged 0), zeros 16⟩ signedUp kindWillys "password" =
      some (.str "hunter2") := by
    rw [configOf_signedUp]
    rfl
  obtain ⟨-, -, h⟩ := hkeeps "password" "hunter2" hv
  rcases h (by decide) with h | h
  · exact absurd h (by decide)
  · exact absurd h (by decide)

end Veckomenyn.Echo
