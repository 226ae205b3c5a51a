import Veckomenyn.MasterKey
import Veckomenyn.Upserts

/-!
Whether the table ever holds a secret in clear.

What is masked is decided by the name of a key, what is encrypted by the fields of the kind and the
shape of the value. The two agree on requests that put under a masked key only text, and only
under a field of the kind.
-/

namespace Veckomenyn.Sealing

open Crypto Remote Providers Upserts

/-- A text the store has wrapped, and so on for as long as what it wraps looks wrapped; none of
them wraps nothing. -/
inductive Own (c : Aead) : String → Prop where
  | wrap (nonce : Buf nonceSize) {plain : String} (ne : plain ≠ "")
    (h : isEncrypted plain = true → Own c plain) : Own c (c.encrypt nonce plain)

lemma Own.exists {c : Aead} {s : String} (h : Own c s) :
    ∃ nonce plain, s = c.encrypt nonce plain := by
  cases h with
  | wrap nonce ne h => exact ⟨nonce, _, rfl⟩

/-- Every value under a masked key is one of the store's own wrappings. -/
def SecretsSealed (c : Aead) (t : Table) : Prop :=
  ∀ r ∈ t.rows, ∃ config, r.configJson = .obj config ∧
    ∀ key v, isSecretField r.kind key = true → config key = some v →
      ∃ nonce plain, v = .str (c.encrypt nonce plain)

/-- Stays one however often it is read and written. -/
def SealedValue (c : Aead) (kind : Kind) (key : String) (v : Json) : Prop :=
  ∃ s, v = .str s ∧ if declared kind key then Own c s else ∃ nonce plain, s = c.encrypt nonce plain

def Sealed (c : Aead) (t : Table) : Prop :=
  ∀ r ∈ t.rows, ∃ config, r.configJson = .obj config ∧
    ∀ key v, isSecretField r.kind key = true → config key = some v → SealedValue c r.kind key v

/-- What a request may put under a masked key: the sentinel, nothing, text under a field of the
kind, or one of the store's own wrappings. -/
def Sealable (c : Aead) (v : Visit) : Prop :=
  match v.request with
  | .list => True
  | .patch kind body =>
    (kindInfoFor kind).isSome = true → ∀ patch, body = some patch → ∀ key j,
      isSecretField kind key = true → patch.config key = some j →
        ∃ s, j = .str s ∧ (s = Store.sentinel ⟨some c, v.token⟩ ∨ s = "" ∨
          declared kind key ∧ Crypto.isEncrypted s = false ∨ SealedValue c kind key (.str s))

lemma Sealed.secretsSealed {c : Aead} {t : Table} (h : Sealed c t) : SecretsSealed c t := by
  intro r hr
  obtain ⟨config, hconfig, hv⟩ := h r hr
  refine ⟨config, hconfig, fun key v hs hk => ?_⟩
  obtain ⟨s, rfl, hs⟩ := hv key v hs hk
  split_ifs at hs with hd
  · obtain ⟨nonce, plain, rfl⟩ := hs.exists
    exact ⟨nonce, plain, rfl⟩
  · obtain ⟨nonce, plain, rfl⟩ := hs
    exact ⟨nonce, plain, rfl⟩

/-! ### One value -/

variable {c : Aead} {kind : Kind} {key : String} {v w : Json}

lemma wraps_own {s : String} (h : isEncrypted s = false ∧ s ≠ "" ∨ Own c s)
    (hw : Wraps c (.str s) w) : ∃ s', w = .str s' ∧ Own c s' := by
  cases hw with
  | plain nonce hne he => exact ⟨_, rfl, .wrap nonce hne fun h => absurd (he.symm.trans h) (by simp)⟩
  | other hother =>
    rcases h with ⟨he, hne⟩ | h
    · rcases hother s rfl with rfl | ht
      · exact absurd rfl hne
      · exact absurd (he.symm.trans ht) (by simp)
    · exact ⟨s, rfl, h⟩

/-- What is read and not touched is sealed again. -/
lemma SealedValue.kept (h : SealedValue c kind key v)
    (hw : Stored (some c) kind key (reads (some c) kind key v) w) : SealedValue c kind key w := by
  obtain ⟨s, rfl, hs⟩ := h
  unfold SealedValue
  unfold Stored reads at hw
  by_cases hd : declared kind key
  · simp only [hd, if_true, unwrapped] at hs hw ⊢
    cases hs with
    | @wrap nonce plain ne hown =>
      rw [unwrap_encrypt] at hw
      refine wraps_own ?_ hw
      by_cases he : isEncrypted plain = true
      · exact Or.inr (hown he)
      · exact Or.inl ⟨by simpa using he, ne⟩
  · simp only [hd, if_false] at hs hw ⊢
    exact ⟨s, hw, hs⟩

/-- What a request puts there is sealed. -/
lemma sealedValue_put {s : String} (hne : s ≠ "")
    (h : declared kind key ∧ isEncrypted s = false ∨ SealedValue c kind key (.str s))
    (hw : Stored (some c) kind key (.str s) w) : SealedValue c kind key w := by
  unfold SealedValue
  unfold Stored at hw
  by_cases hd : declared kind key
  · simp only [hd, if_true] at hw ⊢
    refine wraps_own ?_ hw
    rcases h with ⟨-, he⟩ | ⟨s', hs', hown⟩
    · exact Or.inl ⟨he, hne⟩
    · cases hs'
      rw [if_pos hd] at hown
      exact Or.inr hown
  · simp only [hd, if_false] at hw ⊢
    rcases h with ⟨hd', -⟩ | ⟨s', hs', hown⟩
    · exact absurd hd' hd
    · rw [if_neg hd] at hown
      exact ⟨s', hw.trans hs', hown⟩

/-! ### One request -/

lemma merge_cases {s : Store} {config patch : Config} {key : String} {v : Json}
    (h : s.merge config patch key = some v) :
    config key = some v ∧ (patch key = none ∨ patch key = some (.str s.sentinel)) ∨
      patch key = some v ∧ v ≠ .str s.sentinel ∧ v ≠ .str "" := by
  unfold Store.merge at h
  split at h
  · next hp => exact Or.inl ⟨h, Or.inl hp⟩
  · next t hp =>
    split_ifs at h with hs he
    · exact Or.inl ⟨h, Or.inr (hs ▸ hp)⟩
    · cases h
      exact Or.inr ⟨hp, by simpa using hs, by simpa using he⟩
  · next j hj hp =>
    cases h
    exact Or.inr ⟨hp, hj _, hj _⟩

/-- The config an update starts from is a row's, read. -/
lemma Sealed.current {t : Table} (h : Sealed c t) {s : Store} (hs : s.crypt = some c)
    {row : Config × Bool} (hrow : Store.current (s.found t kind) = .ok row) {v : Json}
    (hkey : isSecretField kind key = true) (hv : row.1 key = some v) :
    ∃ v₀, SealedValue c kind key v₀ ∧ v = reads (some c) kind key v₀ := by
  unfold Store.found at hrow
  cases hf : t.find? kind with
  | none =>
    rw [hf] at hrow
    cases hrow
    exact absurd hv (by simp)
  | some r =>
    obtain ⟨hr, rfl⟩ := Table.mem_of_find? hf
    obtain ⟨config, hconfig, hsealed⟩ := h r hr
    simp only [hf, Store.provider, hconfig, Store.unmarshal, Except.map, Store.current,
      Except.ok.injEq] at hrow
    subst hrow
    have hv : s.decryptSecrets r.kind config key = some v := hv
    rw [decryptSecrets_apply, hs] at hv
    obtain ⟨v₀, hv₀, rfl⟩ := Option.map_eq_some_iff.mp hv
    exact ⟨v₀, hsealed key v₀ hkey hv₀, rfl⟩

/-- **One request**: what it may put keeps the table sealed. -/
theorem Sealed.leaves {visit : Visit} {t u : Table} (h : Sealed c t) (hs : Sealable c visit)
    (hl : Leaves (some c) visit t u) : Sealed c u := by
  unfold Leaves at hl
  unfold Sealable at hs
  cases hreq : visit.request with
  | list =>
    simp only [hreq] at hl
    exact hl ▸ h
  | patch kind body =>
    simp only [hreq] at hl hs
    split_ifs at hl with hk
    · exact hl ▸ h
    · cases body with
      | none => exact hl ▸ h
      | some patch =>
        cases hrow : Store.current (Store.found ⟨some c, visit.token⟩ t kind) with
        | error e =>
          simp only [hrow] at hl
          exact hl ▸ h
        | ok row =>
          simp only [hrow] at hl
          obtain ⟨stored, hstored, rfl⟩ := hl
          intro r hr
          rcases Table.mem_put.mp hr with ⟨hr, -⟩ | rfl
          · exact h r hr
          refine ⟨stored, rfl, fun key w hkey hw => ?_⟩
          have hrel := hstored key
          rw [hw] at hrel
          generalize hm : Store.merge ⟨some c, visit.token⟩ row.1 patch.config key = m at hrel
          cases hrel with
          | some hvw =>
            rcases merge_cases hm with ⟨hold, -⟩ | ⟨hput, hne, hempty⟩
            · obtain ⟨v₀, hv₀, rfl⟩ := h.current rfl hrow hkey hold
              exact hv₀.kept hvw
            · obtain ⟨s, rfl, hcase⟩ := hs (by simpa [Option.isSome_iff_ne_none] using hk) patch rfl key _ hkey hput
              have hne : s ≠ Store.sentinel ⟨some c, visit.token⟩ := fun he => hne (he ▸ rfl)
              have hempty : s ≠ "" := fun he => hempty (he ▸ rfl)
              exact sealedValue_put hempty ((hcase.resolve_left hne).resolve_left hempty) hvw

/-! ### Runs -/

lemma Sealed.served {vs : List Visit} {collate : Kind → Kind → Bool} {t t' : Table}
    {as : List Answer} (h : Sealed c t) (hs : ∀ v ∈ vs, Sealable c v)
    (hrun : Served (some c) collate vs t as t') : Sealed c t' := by
  induction hrun with
  | nil t => exact h
  | cons head tail ih =>
    obtain ⟨hv, hvs⟩ := List.forall_mem_cons.mp hs
    exact ih (h.leaves hv head) hvs

/-- **No secret in clear**: from the empty table, requests that may put what they put leave every
value under a masked key wrapped. -/
theorem secretsSealed_of_sealable (c : Aead) (collate : Kind → Kind → Bool) (vs : List Visit)
    (hs : ∀ v ∈ vs, Sealable c v) (ans : ℕ → (n : ℕ) → Buf n) :
    SecretsSealed c ((serve (some c) collate vs).run ans ⟨Table.empty, []⟩).2.mem := by
  obtain ⟨as, w', hrun, hserved⟩ := run_serve (some c) collate vs ans ⟨Table.empty, []⟩
  have hempty : Sealed c Table.empty := fun r hr => absurd hr List.not_mem_nil
  rw [hrun]
  exact (hempty.served hs hserved).secretsSealed

def hunter : Config := fun key =>
  if key = "username" then some (.str "198001011234")
  else if key = "password" then some (.str "hunter2")
  else none

/-- The first settings of the shop. -/
def signUp (token : Buf 16) : Visit := ⟨token, "", .patch kindWillys (some ⟨some true, hunter⟩)⟩

lemma sealable_signUp (c : Aead) (token : Buf 16) : Sealable c (signUp token) := by
  rintro - _ ⟨⟩ key j hkey hj
  by_cases hu : key = "username"
  · subst hu
    exact absurd hkey (by decide)
  · by_cases hp : key = "password"
    · subst hp
      cases hj
      exact ⟨"hunter2", rfl, Or.inr (Or.inr (Or.inl (by decide)))⟩
    · simp [hunter, hu, hp] at hj

theorem secretsSealed_signUp : SecretsSealed (tagged 0)
    ((serve (some (tagged 0)) (fun _ _ => true) [signUp (MasterKey.zeros 16)]).run
      (fun _ => MasterKey.zeros) ⟨Table.empty, []⟩).2.mem :=
  secretsSealed_of_sealable (tagged 0) (fun _ _ => true) [signUp (MasterKey.zeros 16)]
    (fun _ hv => List.mem_singleton.mp hv ▸ sealable_signUp (tagged 0) _) (fun _ => MasterKey.zeros)

/-- A token for a provider that has no such field. -/
def token : Config := fun key => if key = "token" then some (.str "abc") else none

def sendToken : Visit :=
  ⟨MasterKey.zeros 16, "", .patch kindAnthropic (some ⟨none, token⟩)⟩

/-- The store keeps the token as it came, under a key it masks. -/
theorem not_secretsSealed : ¬ SecretsSealed (tagged 0)
    ((serve (some (tagged 0)) (fun _ _ => true) [sendToken]).run (fun _ => MasterKey.zeros)
      ⟨Table.empty, []⟩).2.mem := by
  intro h
  let s : Store := ⟨some (tagged 0), MasterKey.zeros 16⟩
  obtain ⟨config, hconfig, hv⟩ := h
    ⟨kindAnthropic, false, .obj (s.merge (fun _ => none) token), ""⟩ (List.mem_singleton.mpr rfl)
  cases hconfig
  obtain ⟨nonce, plain, he⟩ := hv "token" (.str "abc") (by decide) rfl
  have henc := (tagged 0).isEncrypted_encrypt nonce plain
  rw [← Json.str.inj he] at henc
  exact absurd henc (by decide)

end Veckomenyn.Sealing
