import Veckomenyn.MasterKey
import Veckomenyn.Upserts

/-!
What the accessors make of a secret that does not unwrap.

Reading leaves it wrapped, and to an accessor that is a text like any other: only what else is
missing makes it report nothing.
-/

namespace Veckomenyn.Misconfigured

open Crypto Providers Upserts

/-- A secret of the row is wrapped, and not by the store's key. -/
def Locked (s : Store) (r : Row) (config : Config) : Prop :=
  r.configJson = .obj config ∧ ∃ c key v e, s.crypt = some c ∧ declared r.kind key ∧
    config key = some (.str v) ∧ isEncrypted v = true ∧ c.decrypt v = .error e

/-- The accessor of the kind reports that it is not configured. -/
structure NotConfigured (s : Store) (t : Table) (kind : Kind) : Prop where
  anthropic : kind = kindAnthropic → s.anthropicAPIKey t = ""
  openAI : kind = kindOpenAI → s.openAIConfig t = none
  openAICompat : kind = kindOpenAICompat → s.openAICompatConfig t = none
  willys : kind = kindWillys → s.willysCredentials t = none

/-- What is missing besides the secret. -/
def Lacking (r : Row) (config : Config) : Prop :=
  r.kind = kindOpenAICompat ∧
      (Store.text config "base_url" = "" ∨ Store.text config "model" = "") ∨
    r.kind = kindWillys ∧ (r.enabled = false ∨ Store.text config "username" = "")

/-- Each known kind has one secret. -/
lemma declared_cases {kind : Kind} {key : String} (h : declared kind key) :
    kind = kindAnthropic ∧ key = "api_key" ∨ kind = kindOpenAI ∧ key = "api_key" ∨
      kind = kindOpenAICompat ∧ key = "api_key" ∨ kind = kindWillys ∧ key = "password" := by
  have hknown : ∀ info ∈ known, ∀ f ∈ info.fields, f.type = "password" →
      info.kind = kindAnthropic ∧ f.key = "api_key" ∨ info.kind = kindOpenAI ∧ f.key = "api_key" ∨
      info.kind = kindOpenAICompat ∧ f.key = "api_key" ∨
      info.kind = kindWillys ∧ f.key = "password" := by decide
  obtain ⟨f, hf, rfl, ht⟩ := h
  unfold fieldsOf at hf
  split at hf
  · next info hinfo =>
    have hkind : info.kind = kind := by simpa using List.find?_some hinfo
    exact hkind ▸ hknown info (List.mem_of_find?_eq_some hinfo) f hf ht
  · exact absurd hf List.not_mem_nil

variable {s : Store} {t : Table} {r : Row} {config : Config}

lemma text_of_not_declared {kind : Kind} {key : String} (h : ¬ declared kind key) :
    Store.text (s.decryptSecrets kind config) key = Store.text config key := by
  rw [Store.text, decryptSecrets_apply]
  unfold reads Store.text
  cases s.crypt <;> cases config key <;> simp [h]

/-- The secret that does not unwrap is handed on. -/
lemma Locked.text (h : Locked s r config) : ∃ key, declared r.kind key ∧
    Store.text (s.decryptSecrets r.kind config) key ≠ "" := by
  obtain ⟨-, c, key, v, e, hcrypt, hd, hv, hwrapped, he⟩ := h
  refine ⟨key, hd, ?_⟩
  have hread : s.decryptSecrets r.kind config key = some (.str v) := by
    rw [decryptSecrets_apply, hv]
    simp [reads, hcrypt, hd, unwrapped, unwrap, he]
  rw [Store.text, hread]
  rintro rfl
  exact absurd hwrapped (by decide)

/-! ### Each kind -/

lemma anthropic_configured (hr : r ∈ t.rows) (hc : r.configJson = .obj config)
    (hk : r.kind = kindAnthropic)
    (h : Store.text (s.decryptSecrets r.kind config) "api_key" ≠ "") : s.anthropicAPIKey t ≠ "" := by
  have hfound := found_of_mem (s := s) hr hc
  rw [hk] at hfound h
  rw [Store.anthropicAPIKey, hfound]
  exact h

lemma openAI_configured (hr : r ∈ t.rows) (hc : r.configJson = .obj config)
    (hk : r.kind = kindOpenAI)
    (h : Store.text (s.decryptSecrets r.kind config) "api_key" ≠ "") : s.openAIConfig t ≠ none := by
  have hfound := found_of_mem (s := s) hr hc
  rw [hk] at hfound h
  rw [Store.openAIConfig, hfound]
  simp [h]

lemma openAICompatConfig_eq_none (hr : r ∈ t.rows) (hc : r.configJson = .obj config)
    (hk : r.kind = kindOpenAICompat) : s.openAICompatConfig t = none ↔
      Store.text config "base_url" = "" ∨ Store.text config "model" = "" := by
  have hb : ¬ declared kindOpenAICompat "base_url" := by decide
  have hm : ¬ declared kindOpenAICompat "model" := by decide
  have hfound := found_of_mem (s := s) hr hc
  rw [hk] at hfound
  rw [Store.openAICompatConfig, hfound]
  simp only [text_of_not_declared hb, text_of_not_declared hm]
  split_ifs with h
  · exact ⟨fun _ => h, fun _ => rfl⟩
  · exact ⟨fun he => absurd he (by simp), fun h' => absurd h' h⟩

lemma willysCredentials_eq_none (hr : r ∈ t.rows) (hc : r.configJson = .obj config)
    (hk : r.kind = kindWillys)
    (h : Store.text (s.decryptSecrets r.kind config) "password" ≠ "") :
    s.willysCredentials t = none ↔ r.enabled = false ∨ Store.text config "username" = "" := by
  have hu : ¬ declared kindWillys "username" := by decide
  have hfound := found_of_mem (s := s) hr hc
  rw [hk] at hfound h
  rw [Store.willysCredentials, hfound]
  cases r.enabled <;> simp [text_of_not_declared hu, h]

/-- **A locked secret**: the accessor reports that there is no configuration exactly when something
else is missing too; for the two providers that need nothing else, never. -/
theorem notConfigured_iff (hr : r ∈ t.rows) (h : Locked s r config) :
    NotConfigured s t r.kind ↔ Lacking r config := by
  obtain ⟨key, hd, htext⟩ := h.text
  rcases declared_cases hd with ⟨hk, rfl⟩ | ⟨hk, rfl⟩ | ⟨hk, rfl⟩ | ⟨hk, rfl⟩
  · refine ⟨fun hn => absurd (hn.anthropic hk) (anthropic_configured hr h.1 hk htext), ?_⟩
    rintro (⟨h, -⟩ | ⟨h, -⟩) <;> exact absurd (hk.symm.trans h) (by decide)
  · refine ⟨fun hn => absurd (hn.openAI hk) (openAI_configured hr h.1 hk htext), ?_⟩
    rintro (⟨h, -⟩ | ⟨h, -⟩) <;> exact absurd (hk.symm.trans h) (by decide)
  · have hiff := openAICompatConfig_eq_none (s := s) hr h.1 hk
    constructor
    · exact fun hn => Or.inl ⟨hk, hiff.mp (hn.openAICompat hk)⟩
    · rintro (⟨-, hl⟩ | ⟨h, -⟩)
      · exact {
          anthropic := fun h => absurd (hk.symm.trans h) (by decide)
          openAI := fun h => absurd (hk.symm.trans h) (by decide)
          openAICompat := fun _ => hiff.mpr hl
          willys := fun h => absurd (hk.symm.trans h) (by decide) }
      · exact absurd (hk.symm.trans h) (by decide)
  · have hiff := willysCredentials_eq_none hr h.1 hk htext
    constructor
    · exact fun hn => Or.inr ⟨hk, hiff.mp (hn.willys hk)⟩
    · rintro (⟨h, -⟩ | ⟨-, hl⟩)
      · exact absurd (hk.symm.trans h) (by decide)
      · exact {
          anthropic := fun h => absurd (hk.symm.trans h) (by decide)
          openAI := fun h => absurd (hk.symm.trans h) (by decide)
          openAICompat := fun h => absurd (hk.symm.trans h) (by decide)
          willys := fun _ => hiff.mpr hl }

/-! ### Another key -/

/-- A config with a secret that the key tagged `0` has wrapped. -/
def wrappedUnder (key : String) : Config := fun k =>
  if k = key then some (.str ((tagged 0).encrypt (MasterKey.zeros nonceSize) "secret")) else none

/-- A switched off row with such a secret. -/
def lockedRow (kind : Kind) (key : String) : Row := ⟨kind, false, .obj (wrappedUnder key), ""⟩

/-- The store of a process with another key. -/
def otherKey : Store := ⟨some (tagged 1), MasterKey.zeros 16⟩

lemma locked_lockedRow {kind : Kind} {key : String} (h : declared kind key) :
    Locked otherKey (lockedRow kind key) (wrappedUnder key) :=
  ⟨rfl, tagged 1, key, _, .authentication, rfl, h, if_pos rfl, Aead.isEncrypted_encrypt _ _ _,
    Aead.decrypt_encrypt_by _ _ _ _⟩

theorem notConfigured_willys :
    NotConfigured otherKey (Table.empty.put (lockedRow kindWillys "password")) kindWillys :=
  (notConfigured_iff (r := lockedRow kindWillys "password") (List.mem_singleton.mpr rfl)
    (locked_lockedRow (by decide))).mpr (Or.inr ⟨rfl, Or.inl rfl⟩)

/-- The wrapped text is handed on as the key. -/
theorem configured_anthropic :
    lockedRow kindAnthropic "api_key" ∈ (Table.empty.put (lockedRow kindAnthropic "api_key")).rows ∧
    Locked otherKey (lockedRow kindAnthropic "api_key") (wrappedUnder "api_key") ∧
    ¬ NotConfigured otherKey (Table.empty.put (lockedRow kindAnthropic "api_key")) kindAnthropic := by
  have hr : lockedRow kindAnthropic "api_key" ∈
      (Table.empty.put (lockedRow kindAnthropic "api_key")).rows := List.mem_singleton.mpr rfl
  have hl : Locked otherKey (lockedRow kindAnthropic "api_key") (wrappedUnder "api_key") :=
    locked_lockedRow (by decide)
  obtain ⟨key, hd, htext⟩ := hl.text
  refine ⟨hr, hl, fun hn => ?_⟩
  rcases declared_cases hd with ⟨-, rfl⟩ | ⟨h, -⟩ | ⟨h, -⟩ | ⟨h, -⟩
  · exact anthropic_configured hr rfl rfl htext (hn.anthropic rfl)
  all_goals exact absurd h (by decide)

end Veckomenyn.Misconfigured
