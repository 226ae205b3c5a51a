import Mathlib.Logic.Function.Iterate
import Veckomenyn.MasterKey
import Veckomenyn.SideBySide
import Veckomenyn.Upserts

/-!
What the answers of the two routes say about a secret.

Two tables that differ only in what their secrets are answer every sequence of requests alike, as
long as the secrets of both read as text and go on doing so: each update stores what it has read,
so a secret that was wrapped more than once comes out a little further every time.
-/

namespace Veckomenyn.Masking

open Crypto Remote Providers SideBySide Upserts

/-! ### Tables that differ in their secrets -/

/-- `P` is asked of the secrets that differ. -/
def ValuesAlike (P : Kind → String → Json → Prop) (kind : Kind) (key : String) (v v' : Json) :
    Prop :=
  v = v' ∨ isSecretField kind key = true ∧ P kind key v ∧ P kind key v'

def ConfigsAlike (P : Kind → String → Json → Prop) (kind : Kind) (config config' : Config) : Prop :=
  ∀ key, Option.Rel (ValuesAlike P kind key) (config key) (config' key)

structure RowsAlike (P : Kind → String → Json → Prop) (r r' : Row) : Prop where
  kind : r.kind = r'.kind
  enabled : r.enabled = r'.enabled
  updatedAt : r.updatedAt = r'.updatedAt
  config : r.configJson = r'.configJson ∨ ∃ config config', r.configJson = .obj config ∧
    r'.configJson = .obj config' ∧ ConfigsAlike P r.kind config config'

def TablesAlike (P : Kind → String → Json → Prop) (t t' : Table) : Prop :=
  List.Forall₂ (RowsAlike P) t.rows t'.rows

/-- A value that reads as a text. -/
def ReadsText (crypt : Option Aead) (kind : Kind) (key : String) (v : Json) : Prop :=
  ∃ s, s ≠ "" ∧ reads crypt kind key v = .str s

/-- A value that is a text, however often it is read. -/
def StaysText (crypt : Option Aead) (kind : Kind) (key : String) (v : Json) : Prop :=
  ∀ n, ∃ s, s ≠ "" ∧ (reads crypt kind key)^[n] v = .str s

variable {crypt : Option Aead} {kind : Kind} {key : String} {v v' w w' : Json}

lemma StaysText.reads (h : StaysText crypt kind key v) :
    StaysText crypt kind key (reads crypt kind key v) := fun n => h (n + 1)

lemma staysText_plain {s : String} (hs : s ≠ "") (h : isEncrypted s = false) :
    StaysText crypt kind key (.str s) := by
  intro n
  refine ⟨s, hs, ?_⟩
  rw [Function.iterate_fixed (reads_plain h)]

/-! ### One value -/

/-- What is stored of a text is one. -/
lemma StaysText.stored (h : StaysText crypt kind key v) (hw : Stored crypt kind key v w) :
    StaysText crypt kind key w := by
  intro n
  cases n with
  | zero =>
    unfold Stored at hw
    split at hw
    · exact hw ▸ h 0
    · split_ifs at hw
      · cases hw with
        | plain nonce hs he => exact ⟨_, Aead.encrypt_ne_empty _ nonce _, rfl⟩
        | other hother => exact h 0
      · exact hw ▸ h 0
  | succ n =>
    rw [Function.iterate_succ_apply, hw.reads]
    exact h (n + 1)

/-- Values alike are stored alike, whatever is drawn for each. -/
lemma ValuesAlike.stored (h : ValuesAlike (StaysText crypt) kind key v v')
    (hw : Stored crypt kind key v w) (hw' : Stored crypt kind key v' w') :
    ValuesAlike (StaysText crypt) kind key w w' := by
  rcases h with rfl | ⟨hkey, h, h'⟩
  · unfold Stored at hw hw'
    cases crypt with
    | none => exact Or.inl (hw.trans hw'.symm)
    | some c =>
      by_cases hd : declared kind key
      · simp only [hd, if_true] at hw hw'
        cases hw with
        | plain nonce hs he =>
          have stays {x : Json} (hx : Wraps c (.str _) x) : StaysText (some c) kind key x :=
            (staysText_plain hs he).stored (by simpa only [Stored, hd, if_true] using hx)
          exact Or.inr ⟨isSecretField_of_declared hd, stays (.plain nonce hs he), stays hw'⟩
        | other hother =>
          cases hw' with
          | plain nonce hs he =>
            exact absurd (hother _ rfl) (by simp [hs, he])
          | other h => exact Or.inl rfl
      · simp only [hd, if_false] at hw hw'
        exact Or.inl (hw.trans hw'.symm)
  · exact Or.inr ⟨hkey, h.stored hw, h'.stored hw'⟩

lemma ValuesAlike.reads (h : ValuesAlike (StaysText crypt) kind key v v') :
    ValuesAlike (StaysText crypt) kind key (reads crypt kind key v) (reads crypt kind key v') := by
  rcases h with rfl | ⟨hkey, h, h'⟩
  · exact Or.inl rfl
  · exact Or.inr ⟨hkey, h.reads, h'.reads⟩

/-! ### One config -/

variable {s : Store} {config config' : Config}

lemma ConfigsAlike.decryptSecrets (h : ConfigsAlike (StaysText s.crypt) kind config config') :
    ConfigsAlike (StaysText s.crypt) kind (s.decryptSecrets kind config)
      (s.decryptSecrets kind config') := by
  intro key
  rw [decryptSecrets_apply, decryptSecrets_apply]
  have hk := h key
  generalize config key = v, config' key = v' at hk
  cases hk with
  | none => exact .none
  | some hk => exact .some hk.reads

lemma ConfigsAlike.merge (h : ConfigsAlike (StaysText s.crypt) kind config config')
    (patch : Config) : ConfigsAlike (StaysText s.crypt) kind (s.merge config patch)
      (s.merge config' patch) := by
  have same (v : Json) (key : String) : Option.Rel (ValuesAlike (StaysText s.crypt) kind key)
      (some v) (some v) := .some (Or.inl rfl)
  intro key
  unfold Store.merge
  split
  · exact h key
  · split_ifs
    · exact h key
    · exact .none
    · exact same _ key
  · exact same _ key

lemma ConfigsAlike.stored {stored stored' : Config}
    (h : ConfigsAlike (StaysText crypt) kind config config')
    (hs : StoredAs crypt kind config stored) (hs' : StoredAs crypt kind config' stored') :
    ConfigsAlike (StaysText crypt) kind stored stored' := by
  intro key
  have hk := h key
  have hk₁ := hs key
  have hk₂ := hs' key
  generalize config key = v, config' key = v', stored key = w, stored' key = w' at hk hk₁ hk₂
  cases hk with
  | none =>
    cases hk₁
    cases hk₂
    exact .none
  | some hk =>
    cases hk₁ with
    | some hk₁ =>
      cases hk₂ with
      | some hk₂ => exact .some (hk.stored hk₁ hk₂)

/-- Configs alike are shown alike. -/
lemma ConfigsAlike.mask (h : ConfigsAlike (StaysText crypt) kind config config') (s : Store)
    (enabled : Bool) (updatedAt : String) :
    s.mask ⟨kind, enabled, config, updatedAt⟩ = s.mask ⟨kind, enabled, config', updatedAt⟩ := by
  unfold Store.mask
  congr 1
  funext key
  have hk := h key
  simp only
  generalize config key = v, config' key = v' at hk
  cases hk with
  | none => rfl
  | some hk =>
    rcases hk with rfl | ⟨hkey, h, h'⟩
    · rfl
    · obtain ⟨t, ht, hv⟩ := h 0
      obtain ⟨t', ht', hv'⟩ := h' 0
      simp only [Function.iterate_zero, id_eq] at hv hv'
      subst hv hv'
      simp [hkey, ht, ht']

/-! ### One row -/

/-- Two rows read, when both can be. -/
inductive ReadAlike (crypt : Option Aead) : Except Err Provider → Except Err Provider → Prop where
  | error (e : Err) : ReadAlike crypt (.error e) (.error e)
  | ok (kind : Kind) (enabled : Bool) {config config' : Config} (updatedAt : String)
    (h : ConfigsAlike (StaysText crypt) kind config config') :
    ReadAlike crypt (.ok ⟨kind, enabled, config, updatedAt⟩)
      (.ok ⟨kind, enabled, config', updatedAt⟩)

lemma configsAlike_refl (P : Kind → String → Json → Prop) (kind : Kind) (config : Config) :
    ConfigsAlike P kind config config := by
  intro key
  cases config key with
  | none => exact .none
  | some v => exact .some (Or.inl rfl)

lemma RowsAlike.provider {r r' : Row} (h : RowsAlike (StaysText s.crypt) r r') :
    ReadAlike s.crypt (s.provider r) (s.provider r') := by
  obtain ⟨kind, enabled, json, updatedAt⟩ := r
  obtain ⟨kind', enabled', json', updatedAt'⟩ := r'
  obtain ⟨hkind, henabled, hupdated, hconfig⟩ := h
  simp only at hkind henabled hupdated hconfig
  subst hkind henabled hupdated
  rcases hconfig with rfl | ⟨config, config', rfl, rfl, hconfig⟩
  · cases hu : Store.unmarshal json with
    | error e =>
      simp only [Store.provider, hu, Except.map]
      exact .error e
    | ok config =>
      simp only [Store.provider, hu, Except.map]
      exact .ok kind enabled updatedAt (configsAlike_refl _ _ _)
  · exact .ok kind enabled updatedAt hconfig.decryptSecrets

/-! ### One table -/

variable {t t' : Table}

lemma TablesAlike.found (h : TablesAlike (StaysText s.crypt) t t') (kind : Kind) :
    ReadAlike s.crypt (s.found t kind) (s.found t' kind) := by
  have hf : Option.Rel (RowsAlike (StaysText s.crypt)) (t.find? kind) (t'.find? kind) :=
    rel_find? h fun r r' hr => by rw [hr.kind]
  unfold Store.found
  generalize t.find? kind = r, t'.find? kind = r' at hf
  cases hf with
  | none => exact .error .notFound
  | some hr => exact hr.provider

lemma TablesAlike.put (h : TablesAlike (StaysText crypt) t t') {r r' : Row}
    (hr : RowsAlike (StaysText crypt) r r') :
    TablesAlike (StaysText crypt) (t.put r) (t'.put r') := by
  refine List.rel_append (forall₂_filter h fun x x' hx => ?_) (.cons hr .nil)
  rw [hx.kind, hr.kind]

/-- Read lists are shown alike. -/
lemma mapM_provider {rows rows' : List Row}
    (h : List.Forall₂ (RowsAlike (StaysText s.crypt)) rows rows') :
    (rows.mapM s.provider).map (List.map s.mask) =
      (rows'.mapM s.provider).map (List.map s.mask) := by
  induction h with
  | nil => rfl
  | @cons r r' rows rows' hr _ ih =>
    rw [List.mapM_cons, List.mapM_cons]
    have hp := hr.provider
    generalize s.provider r = p, s.provider r' = p' at hp
    cases hp with
    | error e => rfl
    | ok kind enabled updatedAt hconfig =>
      have hmask := hconfig.mask s enabled updatedAt
      cases hl : rows.mapM s.provider with
      | error e =>
        cases hl' : rows'.mapM s.provider with
        | error e' => rw [hl, hl'] at ih; cases ih; rfl
        | ok ps' => rw [hl, hl'] at ih; cases ih
      | ok ps =>
        cases hl' : rows'.mapM s.provider with
        | error e => rw [hl, hl'] at ih; cases ih
        | ok ps' =>
          rw [hl, hl'] at ih
          have hps : ps.map s.mask = ps'.map s.mask := Except.ok.inj ih
          exact congrArg Except.ok (by simp only [List.map_cons, hmask, hps])

/-- What is added to a list shows nothing. -/
lemma map_withKnown (ps : List Provider) : (withKnown ps).map s.mask = withKnown (ps.map s.mask) := by
  unfold withKnown
  rw [List.map_append, List.map_map, List.map_map]
  rfl

lemma listed_congr {r r' : Except Err (List Provider)}
    (h : r.map (List.map s.mask) = r'.map (List.map s.mask)) : s.listed r = s.listed r' := by
  cases r with
  | error e =>
    cases r' with
    | error e' => rfl
    | ok ps' => cases h
  | ok ps =>
    cases r' with
    | error e' => cases h
    | ok ps' => simp only [Store.listed, map_withKnown, Except.ok.inj h]

/-! ### One request -/

variable {collate : Kind → Kind → Bool} {visit : Visit}

/-- What an update starts from, in both tables. -/
inductive RowsRead (crypt : Option Aead) (kind : Kind) :
    Except Err (Config × Bool) → Except Err (Config × Bool) → Prop where
  | error (e : Err) : RowsRead crypt kind (.error e) (.error e)
  | ok {config config' : Config} (enabled : Bool)
    (h : ConfigsAlike (StaysText crypt) kind config config') :
    RowsRead crypt kind (.ok (config, enabled)) (.ok (config', enabled))

lemma found_kind {p : Provider} (h : s.found t kind = .ok p) : p.kind = kind := by
  unfold Store.found at h
  cases hf : t.find? kind with
  | none => rw [hf] at h; cases h
  | some r =>
    rw [hf] at h
    simp only [Store.provider] at h
    cases hu : Store.unmarshal r.configJson with
    | error e => rw [hu] at h; cases h
    | ok config =>
      rw [hu] at h
      cases h
      exact (Table.mem_of_find? hf).2

lemma TablesAlike.current (h : TablesAlike (StaysText s.crypt) t t') (kind : Kind) :
    RowsRead s.crypt kind (Store.current (s.found t kind)) (Store.current (s.found t' kind)) := by
  have hf := h.found kind
  have hk := @found_kind kind s t
  generalize s.found t kind = p, s.found t' kind = p' at hf hk
  cases hf with
  | error e =>
    cases e with
    | notFound => exact .ok false (configsAlike_refl _ _ _)
    | unmarshal => exact .error .unmarshal
  | ok kind' enabled updatedAt hconfig =>
    obtain rfl : kind' = kind := hk rfl
    exact .ok enabled hconfig

/-- **One request**: tables alike answer alike. -/
theorem TablesAlike.answer (h : TablesAlike (StaysText crypt) t t') (collate : Kind → Kind → Bool)
    (visit : Visit) : answer crypt collate visit t = answer crypt collate visit t' := by
  unfold Upserts.answer
  cases visit.request with
  | list =>
    refine listed_congr (mapM_provider (forall₂_mergeSort h fun a b a' b' ha hb => ?_))
    rw [ha.kind, hb.kind]
  | patch kind body =>
    simp only
    split_ifs
    · rfl
    · cases body with
      | none => rfl
      | some patch =>
        have hrow := TablesAlike.current (s := ⟨crypt, visit.token⟩) h kind
        simp only
        generalize Store.current (Store.found ⟨crypt, visit.token⟩ t kind) = row,
          Store.current (Store.found ⟨crypt, visit.token⟩ t' kind) = row' at hrow
        cases hrow with
        | error e => rfl
        | ok enabled hconfig =>
          exact congrArg Answer.provider
            ((hconfig.merge (s := ⟨crypt, visit.token⟩) patch.config).decryptSecrets.mask _ _ _)

/-- **One request**: tables alike are left alike, whatever is drawn for each. -/
theorem TablesAlike.leaves {u u' : Table} (h : TablesAlike (StaysText crypt) t t')
    (hl : Leaves crypt visit t u) (hl' : Leaves crypt visit t' u') :
    TablesAlike (StaysText crypt) u u' := by
  unfold Leaves at hl hl'
  cases hreq : visit.request with
  | list =>
    simp only [hreq] at hl hl'
    rwa [hl, hl']
  | patch kind body =>
    simp only [hreq] at hl hl'
    split_ifs at hl hl' with hk
    · rwa [hl, hl']
    · cases body with
      | none =>
        simp only at hl hl'
        rwa [hl, hl']
      | some patch =>
        have hrow := TablesAlike.current (s := ⟨crypt, visit.token⟩) h kind
        simp only at hl hl'
        generalize Store.current (Store.found ⟨crypt, visit.token⟩ t kind) = row,
          Store.current (Store.found ⟨crypt, visit.token⟩ t' kind) = row' at hrow hl hl'
        cases hrow with
        | error e =>
          simp only at hl hl'
          rwa [hl, hl']
        | ok enabled hconfig =>
          obtain ⟨stored, hs, rfl⟩ := hl
          obtain ⟨stored', hs', rfl⟩ := hl'
          have hmerge := hconfig.merge (s := ⟨crypt, visit.token⟩) patch.config
          exact h.put ⟨rfl, rfl, rfl, Or.inr ⟨stored, stored', rfl, rfl, hmerge.stored hs hs'⟩⟩

/-! ### Runs -/

lemma TablesAlike.served {visits : List Visit} {u u' : Table} {as as' : List Answer}
    (h : TablesAlike (StaysText crypt) t t') (hs : Served crypt collate visits t as u)
    (hs' : Served crypt collate visits t' as' u') : as = as' := by
  induction hs generalizing t' as' with
  | nil t =>
    cases hs'
    rfl
  | cons head tail ih =>
    cases hs' with
    | cons head' tail' => rw [h.answer collate, ih (h.leaves head head') tail']

/-- **No answer tells**: tables that differ only in secrets, each of which stays a text however often
it is read, answer the same requests alike, whatever is drawn for either. -/
theorem same_answers (crypt : Option Aead) (collate : Kind → Kind → Bool) {t t' : Table}
    (h : TablesAlike (StaysText crypt) t t') (visits : List Visit)
    (ans ans' : ℕ → (n : ℕ) → Buf n) :
    ((serve crypt collate visits).run ans ⟨t, []⟩).1 =
      ((serve crypt collate visits).run ans' ⟨t', []⟩).1 := by
  obtain ⟨as, w, hrun, hs⟩ := run_serve crypt collate visits ans ⟨t, []⟩
  obtain ⟨as', w', hrun', hs'⟩ := run_serve crypt collate visits ans' ⟨t', []⟩
  rw [hrun, hrun', h.served hs hs']

/-- A config with one secret. -/
def apiKey (v : String) : Config := fun key => if key = "api_key" then some (.str v) else none

def withKey (v : String) : Table := Table.empty.put ⟨kindAnthropic, true, .obj (apiKey v), ""⟩

lemma tablesAlike_withKey {P : Kind → String → Json → Prop} {v v' : String}
    (h : P kindAnthropic "api_key" (.str v)) (h' : P kindAnthropic "api_key" (.str v')) :
    TablesAlike P (withKey v) (withKey v') := by
  have hs : isSecretField kindAnthropic "api_key" = true := by decide
  refine .cons ⟨rfl, rfl, rfl, Or.inr ⟨apiKey v, apiKey v', rfl, rfl, fun key => ?_⟩⟩ .nil
  by_cases hk : key = "api_key"
  · subst hk
    exact .some (Or.inr ⟨hs, h, h'⟩)
  · simp only [apiKey, hk, if_false]
    exact .none

/-- A request that changes nothing. -/
def touch : Visit := ⟨MasterKey.zeros 16, "", .patch kindAnthropic (some ⟨none, fun _ => none⟩)⟩

theorem same_answers_withKey :
    ((serve (some (tagged 0)) (fun _ _ => true) [touch]).run (fun _ => MasterKey.zeros)
      ⟨withKey "a", []⟩).1 =
    ((serve (some (tagged 0)) (fun _ _ => true) [touch]).run (fun _ => MasterKey.zeros)
      ⟨withKey "b", []⟩).1 :=
  same_answers (some (tagged 0)) (fun _ _ => true)
    (tablesAlike_withKey (staysText_plain (by decide) (by decide))
      (staysText_plain (by decide) (by decide)))
    [touch] (fun _ => MasterKey.zeros) (fun _ => MasterKey.zeros)

/-- What an update shows of the secret it has read twice. -/
lemma shown_touch {c : Aead} {v : String} {a : Answer}
    (h : a = answer (some c) (fun _ _ => true) touch (withKey v)) :
    ∃ p, a = .provider p ∧ p.config "api_key" =
      some (.str (if unwrap c (unwrap c v) = "" then "" else Store.sentinel ⟨some c, touch.token⟩)) := by
  refine ⟨_, h, ?_⟩
  have hd : declared kindAnthropic "api_key" := by decide
  have hs : isSecretField kindAnthropic "api_key" = true := by decide
  have hr (u : String) : reads (some c) kindAnthropic "api_key" (.str u) = .str (unwrap c u) := by
    simp only [reads, hd, if_true, unwrapped]
  have hv : apiKey v "api_key" = some (.str v) := rfl
  simp only [Store.mask, updated, decryptSecrets_apply, Store.merge, hv, Option.map_some, hr, hs,
    if_true]
  by_cases he : unwrap c (unwrap c v) = "" <;> simp [he]

/-- A secret that is wrapped twice, around nothing, is shown as nothing after one update. -/
theorem answers_differ : ¬ ∀ (crypt : Option Aead) (collate : Kind → Kind → Bool) (t t' : Table),
    TablesAlike (ReadsText crypt) t t' → ∀ (visits : List Visit) (ans ans' : ℕ → (n : ℕ) → Buf n),
      ((serve crypt collate visits).run ans ⟨t, []⟩).1 =
        ((serve crypt collate visits).run ans' ⟨t', []⟩).1 := by
  intro h
  let c := tagged 0
  let n : Buf nonceSize := MasterKey.zeros nonceSize
  have hd : declared kindAnthropic "api_key" := by decide
  have htwice : ReadsText (some c) kindAnthropic "api_key" (.str (c.encrypt n (c.encrypt n ""))) := by
    refine ⟨c.encrypt n "", c.encrypt_ne_empty n "", ?_⟩
    simp only [reads, hd, if_true, unwrapped, unwrap_encrypt]
  have hx : ReadsText (some c) kindAnthropic "api_key" (.str "x") :=
    ⟨"x", by decide, reads_plain (by decide)⟩
  have heq := h (some c) (fun _ _ => true) _ _ (tablesAlike_withKey htwice hx) [touch]
    (fun _ => MasterKey.zeros) (fun _ => MasterKey.zeros)
  obtain ⟨as, w, hrun, hs⟩ := run_serve (some c) (fun _ _ => true) [touch]
    (fun _ => MasterKey.zeros) ⟨withKey (c.encrypt n (c.encrypt n "")), []⟩
  obtain ⟨as', w', hrun', hs'⟩ := run_serve (some c) (fun _ _ => true) [touch]
    (fun _ => MasterKey.zeros) ⟨withKey "x", []⟩
  rw [hrun, hrun'] at heq
  cases hs with
  | cons head tail =>
    cases hs' with
    | cons head' tail' =>
      have ha := (List.cons.inj (Except.ok.inj heq)).1
      obtain ⟨p, hp, hshown⟩ := shown_touch (c := c) (v := c.encrypt n (c.encrypt n "")) rfl
      obtain ⟨p', hp', hshown'⟩ := shown_touch (c := c) (v := "x") rfl
      obtain rfl : p = p' := Answer.provider.inj (hp.symm.trans (ha.trans hp'))
      have hplain : unwrap c "x" = "x" := unwrap_of_plain (by decide)
      rw [hshown, unwrap_encrypt, unwrap_encrypt, hplain, hplain] at hshown'
      exact sentinel_ne_empty ⟨some c, touch.token⟩ (by simpa using hshown'.symm)

end Veckomenyn.Masking
