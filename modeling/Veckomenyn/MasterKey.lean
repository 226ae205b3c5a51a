import Veckomenyn.Crypto
import Veckomenyn.Rely

/-!
Which master key a process uses.

A start looks for the key in the environment and in the database, and persists what the database
does not have. Any number of starts share the database, their statements in any order. The row is
written once: the insert of a second key fails on the primary key.
-/

namespace Veckomenyn.MasterKey

open Crypto Remote

def masterKeyName : String := "master_key"

inductive KeyChoice where
  | useEnv
  | useDB
  | mirrorEnvToDB
  | generate
  | mismatchError
  deriving DecidableEq

def decideKey (envSet dbSet envEqualsDB : Bool) : KeyChoice :=
  if envSet && dbSet && envEqualsDB then .useEnv
  else if envSet && dbSet && !envEqualsDB then .mismatchError
  else if envSet && !dbSet then .mirrorEnvToDB
  else if !envSet && dbSet then .useDB
  else .generate

/-- The table `system_secrets`, a value for each name. -/
abbrev SystemSecrets := String → Option Bytes

/-- A start; it draws random bytes from outside, and an error is the text before its cause. -/
abbrev Start (α : Type) := Proc SystemSecrets ℕ Buf String α

def insertSecret (name : String) (value : Bytes) (failure : String) : Start Unit := do
  let inserted ← Proc.act (fun secrets => match secrets name with
    | some _ => (Except.error failure, secrets)
    | none => (.ok (), Function.update secrets name (some value))) pure
  Proc.ret inserted

/-- The key of the environment, empty for a variable that is not set. -/
def envKey (envValue : String) : Except String Bytes :=
  if envValue = "" then .ok []
  else match parseMasterKey envValue with
    | none => .error "MASTER_KEY env"
    | some key =>
      if key.length ≠ 32 then
        .error ("MASTER_KEY env must decode to 32 bytes, got " ++ toString key.length)
      else .ok key

def mismatch : String :=
  "MASTER_KEY env does not match the key stored in the database; " ++
    "refusing to start because existing encrypted data would become unreadable. " ++
    "Either restore the previous key in env, or clear the system_secrets row " ++
    "and re-enter all credentials from scratch"

/-- What follows the two lookups. -/
def resolve (dbKey : Option Bytes) (envKey : Bytes) : Start Bytes :=
  let envSet := decide (envKey.length > 0)
  match decideKey envSet dbKey.isSome
      (envSet && dbKey.isSome && decide (envKey = dbKey.getD [])) with
  | .useEnv => pure envKey
  | .mismatchError => Proc.fail mismatch
  | .mirrorEnvToDB => do
    insertSecret masterKeyName envKey "mirror env master_key to db"
    pure envKey
  | .useDB => pure (dbKey.getD [])
  | .generate => do
    let key ← Proc.request 32
    insertSecret masterKeyName key.1 "persist generated master_key"
    pure key.1

def loadOrGenerateMasterKey (envValue : String) : Start Bytes := do
  let dbKey ← Proc.read fun secrets => secrets masterKeyName
  let envKey ← Proc.ret (envKey envValue)
  resolve dbKey envKey

/-! ### The row is written once -/

/-- The row has a key of the right length, or is not there. -/
def Valid (secrets : SystemSecrets) : Prop := ∀ key, secrets masterKeyName = some key → key.length = 32

/-- A key that is there stays. -/
structure Later (before after : SystemSecrets) : Prop where
  keeps : ∀ key, before masterKeyName = some key → after masterKeyName = some key
  valid : Valid before → Valid after

instance : Std.Refl Later := ⟨fun _ => ⟨fun _ h => h, fun h => h⟩⟩

instance : IsTrans SystemSecrets Later where
  trans _ _ _ h h' :=
    ⟨fun key hk => h'.keeps key (h.keeps key hk), fun hv => h'.valid (h.valid hv)⟩

/-- The key a start returns is in the row. -/
def InRow (r : Except String Bytes) (secrets : SystemSecrets) : Prop :=
  ∀ key, r = .ok key → secrets masterKeyName = some key

lemma under_error (e : String) (s : SystemSecrets) :
    (Proc.fail e : Start Bytes).Under Later InRow s := fun _ _ _ h => absurd h (by simp)

lemma under_ok {key : Bytes} {s : SystemSecrets} (h : s masterKeyName = some key) :
    (pure key : Start Bytes).Under Later InRow s :=
  fun _ hs _ hk => Except.ok.inj hk ▸ hs.keeps key h

lemma under_insert {key : Bytes} (hkey : key.length = 32) (failure : String) (s : SystemSecrets) :
    (insertSecret masterKeyName key failure >>= fun _ => pure key).Under Later InRow s := by
  intro s' _
  cases hs : s' masterKeyName with
  | some key' =>
    simp only [hs]
    exact ⟨Std.Refl.refl s', under_error failure s'⟩
  | none =>
    simp only [hs]
    refine ⟨⟨fun _ hk => ?_, fun _ _ hk => ?_⟩, under_ok (Function.update_self _ _ _)⟩
    · exact absurd (hs.symm.trans hk) (by simp)
    · rw [Function.update_self] at hk
      exact Option.some.inj hk ▸ hkey

lemma envKey_length {envValue : String} {key : Bytes} (h : envKey envValue = .ok key) :
    key = [] ∨ key.length = 32 := by
  unfold envKey at h
  split at h
  · exact Or.inl (Except.ok.inj h).symm
  · split at h
    · exact absurd h (by simp)
    · split at h
      · exact absurd h (by simp)
      · next hlen => exact Or.inr (Except.ok.inj h ▸ not_not.mp hlen)

/-- A key the database has is the key, whatever else is set. -/
lemma under_resolve_db {key env : Bytes} {s : SystemSecrets} (h : s masterKeyName = some key) :
    (resolve (some key) env).Under Later InRow s := by
  by_cases hset : env.length > 0
  · by_cases heq : env = key
    · subst heq
      have hr : resolve (some env) env = pure env := by simp [resolve, decideKey, hset]
      rw [hr]
      exact under_ok h
    · have hr : resolve (some key) env = Proc.fail mismatch := by
        simp [resolve, decideKey, hset, heq]
      rw [hr]
      exact under_error _ s
  · have hr : resolve (some key) env = pure key := by simp [resolve, decideKey, hset]
    rw [hr]
    exact under_ok h

lemma under_resolve_none {env : Bytes} (henv : env = [] ∨ env.length = 32) (s : SystemSecrets) :
    (resolve none env).Under Later InRow s := by
  rcases henv with rfl | henv
  · exact fun key => under_insert key.2 _ s
  · have hset : env.length > 0 := by omega
    have hr : resolve none env = (insertSecret masterKeyName env "mirror env master_key to db" >>=
        fun _ => pure env) := by simp [resolve, decideKey, hset]
    rw [hr]
    exact under_insert henv _ s

/-- **A start**: whatever the others do between its statements, the key it returns is in the row. -/
theorem under_load (envValue : String) (s : SystemSecrets) :
    (loadOrGenerateMasterKey envValue).Under Later InRow s := by
  intro s' _
  refine ⟨Std.Refl.refl s', ?_⟩
  show (Proc.ret (envKey envValue) >>= fun env => resolve (s' masterKeyName) env).Under _ _ s'
  cases he : envKey envValue with
  | error e => exact under_error e s'
  | ok env =>
    show (resolve (s' masterKeyName) env).Under Later InRow s'
    cases hs : s' masterKeyName with
    | some key => exact under_resolve_db hs
    | none => exact under_resolve_none (envKey_length he) s'

/-! ### Starts over one database -/

variable {ι : Type} [DecidableEq ι]

/-- Starts, each with its environment, over a database that is new. -/
def starts (envValue : ι → String) (sched : Threads.Schedule ι ℕ Buf) :
    Threads ι SystemSecrets ℕ Buf String fun _ => Bytes :=
  (Threads.start (fun _ => none) fun i => loadOrGenerateMasterKey (envValue i)).run sched

lemma starts_along (envValue : ι → String) (sched : Threads.Schedule ι ℕ Buf) :
    Threads.Along Later (fun _ => InRow) (fun _ => none) (starts envValue sched) :=
  Threads.along_run (fun i => under_load (envValue i) _) sched

/-- **One key**: the starts that succeed, in whatever order their statements come, all return the
same key, and each reads what another has wrapped. -/
theorem one_key (aes : Buf 32 → Aead) (envValue : ι → String) (sched : Threads.Schedule ι ℕ Buf)
    {i j : ι} {key key' : Bytes} (hi : (starts envValue sched).result i = some (.ok key))
    (hj : (starts envValue sched).result j = some (.ok key')) :
    key = key' ∧ ∃ c c' : Aead, newCryptor aes key = .ok (some c) ∧
      newCryptor aes key' = .ok (some c') ∧
      ∀ nonce plain, c'.decrypt (c.encrypt nonce plain) = .ok plain := by
  have h := starts_along envValue sched
  have hkey : (starts envValue sched).mem masterKeyName = some key := h.result hi key rfl
  have hkey' : (starts envValue sched).mem masterKeyName = some key' := h.result hj key' rfl
  obtain rfl : key = key' := Option.some.inj (hkey.symm.trans hkey')
  have hlen : key.length = 32 := h.mem.valid (fun _ hn => absurd hn (by simp)) key hkey
  have hc : newCryptor aes key = .ok (some (aes ⟨key, hlen⟩)) := by simp [newCryptor, hlen]
  exact ⟨rfl, _, _, hc, hc, fun nonce plain => Aead.decrypt_encrypt _ nonce plain⟩

/-- Random bytes that are all zero. -/
def zeros (n : ℕ) : Buf n := ⟨List.replicate n 0, List.length_replicate⟩

/-- The first start of `false` generates a key, and `true` finds it. -/
def firstBoot : Threads.Schedule Bool ℕ Buf :=
  [(false, zeros), (false, zeros), (false, zeros), (true, zeros)]

theorem one_key_firstBoot :
    (starts (fun _ => "") firstBoot).result false = some (.ok (zeros 32).1) ∧
    (starts (fun _ => "") firstBoot).result true = some (.ok (zeros 32).1) ∧
    ∃ c c' : Aead, newCryptor taggedBy (zeros 32).1 = .ok (some c) ∧
      newCryptor taggedBy (zeros 32).1 = .ok (some c') ∧
      ∀ nonce plain, c'.decrypt (c.encrypt nonce plain) = .ok plain := by
  have hi : (starts (fun _ => "") firstBoot).result false = some (.ok (zeros 32).1) := rfl
  have hj : (starts (fun _ => "") firstBoot).result true = some (.ok (zeros 32).1) := rfl
  exact ⟨hi, hj, (one_key taggedBy (fun _ => "") firstBoot hi hj).2⟩

end Veckomenyn.MasterKey
