import Veckomenyn.Providers
import Veckomenyn.SideBySide

/-!
What reading, merging and writing do to a config, key by key, and what a request leaves behind.

Read back, a config is what it was before it was written, whatever nonces were drawn; so what a
request answers is a function of the table, and only what it stores depends on the draws.
-/

namespace Veckomenyn.Upserts

open Crypto Remote Providers SideBySide

/-- The keys a kind's secrets are encrypted under. -/
def declared (kind : Kind) (key : String) : Prop :=
  ∃ f ∈ fieldsOf kind, f.key = key ∧ f.type = "password"

instance (kind : Kind) (key : String) : Decidable (declared kind key) :=
  inferInstanceAs (Decidable (∃ f ∈ fieldsOf kind, f.key = key ∧ f.type = "password"))

lemma fieldsOf_nodup (kind : Kind) : ((fieldsOf kind).map Field.key).Nodup := by
  have hk : ∀ info ∈ known, (info.fields.map Field.key).Nodup := by decide
  unfold fieldsOf
  split
  · next info h => exact hk info (List.mem_of_find?_eq_some h)
  · exact List.nodup_nil

/-- What is encrypted is masked. -/
lemma isSecretField_of_declared {kind : Kind} {key : String} (h : declared kind key) :
    isSecretField kind key = true := by
  obtain ⟨f, hf, rfl, ht⟩ := h
  cases hfind : (fieldsOf kind).find? fun g => g.key = f.key with
  | none => exact absurd (List.find?_eq_none.mp hfind f hf) (by simp)
  | some g =>
    have hg : g.key = f.key := by simpa using List.find?_some hfind
    obtain rfl : g = f := List.inj_on_of_nodup_map (fieldsOf_nodup kind)
      (List.mem_of_find?_eq_some hfind) hf hg
    simp [isSecretField, hfind, ht]

/-! ### The sentinel -/

lemma toList_sentinel (s : Store) :
    s.sentinel.toList = "redacted:".toList ++ (hex s.token.1).toList := by
  rw [Store.sentinel, String.toList_append]

lemma sentinel_ne_empty (s : Store) : s.sentinel ≠ "" := by
  intro h
  have hl := toList_sentinel s
  rw [h] at hl
  simp at hl

lemma isEncrypted_sentinel (s : Store) : isEncrypted s.sentinel = false := by
  rw [isEncrypted, toList_sentinel]
  simp [cryptoPrefix, List.isPrefixOf]

/-! ### Reading -/

/-- A wrapped text unwraps when it can. -/
def unwrap (c : Aead) (s : String) : String :=
  match c.decrypt s with
  | .ok plain => plain
  | .error _ => s

def unwrapped (c : Aead) : Json → Json
  | .str s => .str (unwrap c s)
  | v => v

/-- How a stored value reads. -/
def reads (crypt : Option Aead) (kind : Kind) (key : String) (v : Json) : Json :=
  match crypt with
  | none => v
  | some c => if declared kind key then unwrapped c v else v

lemma unwrap_of_plain {c : Aead} {s : String} (h : isEncrypted s = false) : unwrap c s = s := by
  simp [unwrap, Aead.decrypt, h]

/-- A text that is not wrapped reads as it is. -/
lemma reads_plain {crypt : Option Aead} {kind : Kind} {key s : String}
    (h : isEncrypted s = false) : reads crypt kind key (.str s) = .str s := by
  unfold reads
  split
  · rfl
  · split_ifs
    · rw [unwrapped, unwrap_of_plain h]
    · rfl

@[simp] lemma unwrap_encrypt (c : Aead) (nonce : Buf nonceSize) (s : String) :
    unwrap c (c.encrypt nonce s) = s := by simp [unwrap]

lemma decryptField_eq (c : Aead) (config : Config) (f : Field) : Store.decryptField c config f =
    if f.type = "password" then Function.update config f.key ((config f.key).map (unwrapped c))
    else config := by
  have same (v : Option Json) (h : config f.key = v) : config = Function.update config f.key v := by
    rw [← h, Function.update_eq_self]
  by_cases ht : f.type = "password"
  · rcases hv : config f.key with _ | _ | _ | _ | s | _ | _ <;>
      simp only [Store.decryptField, ht, hv, ne_eq, not_true_eq_false, if_false, if_true,
        Option.map_none, Option.map_some, unwrapped]
    case some.str =>
      cases hs : isEncrypted s with
      | false => simpa [unwrap_of_plain hs] using same _ hv
      | true =>
        cases hd : c.decrypt s with
        | ok plain => simp [unwrap, hd]
        | error e => simpa [unwrap, hd] using same _ hv
    all_goals exact same _ hv
  · simp [Store.decryptField, ht]

lemma decryptField_apply (c : Aead) (config : Config) (f : Field) (key : String) :
    Store.decryptField c config f key =
      if f.key = key ∧ f.type = "password" then (config key).map (unwrapped c) else config key := by
  rw [decryptField_eq]
  by_cases hk : f.key = key
  · subst hk
    by_cases ht : f.type = "password" <;> simp [ht]
  · by_cases ht : f.type = "password" <;> simp [ht, hk, Function.update_of_ne (Ne.symm hk)]

lemma foldl_decryptField (c : Aead) (fields : List Field) (hn : (fields.map Field.key).Nodup)
    (config : Config) (key : String) : fields.foldl (Store.decryptField c) config key =
      if ∃ f ∈ fields, f.key = key ∧ f.type = "password" then (config key).map (unwrapped c)
      else config key := by
  induction fields generalizing config with
  | nil => simp
  | cons f fields ih =>
    obtain ⟨hf, hn⟩ := List.nodup_cons.mp hn
    rw [List.foldl_cons, ih hn, decryptField_apply]
    by_cases hk : f.key = key
    · have hrest : ¬ ∃ g ∈ fields, g.key = key ∧ g.type = "password" := by
        rintro ⟨g, hg, hgk, -⟩
        exact hf (hk ▸ hgk ▸ List.mem_map_of_mem hg)
      simp only [hrest, if_false, List.exists_mem_cons_iff, or_false]
    · simp only [hk, false_and, if_false, List.exists_mem_cons_iff, false_or]

/-- **Reading**: a config is read key by key. -/
theorem decryptSecrets_apply (s : Store) (kind : Kind) (config : Config) (key : String) :
    s.decryptSecrets kind config key = (config key).map (reads s.crypt kind key) := by
  unfold Store.decryptSecrets reads
  cases s.crypt with
  | none => simp
  | some c =>
    simp only [foldl_decryptField c _ (fieldsOf_nodup kind)]
    by_cases h : declared kind key
    · have h' : ∃ f ∈ fieldsOf kind, f.key = key ∧ f.type = "password" := h
      simp only [h, h', if_true]
    · have h' : ¬ ∃ f ∈ fieldsOf kind, f.key = key ∧ f.type = "password" := h
      simp only [h, h', if_false, Option.map_id']

/-! ### Writing -/

/-- A value and what is encrypted of it. -/
inductive Wraps (c : Aead) : Json → Json → Prop where
  | plain {s : String} (nonce : Buf nonceSize) (hs : s ≠ "") (he : isEncrypted s = false) :
    Wraps c (.str s) (.str (c.encrypt nonce s))
  | other {v : Json} (h : ∀ s, v = .str s → s = "" ∨ isEncrypted s = true) : Wraps c v v

/-- A value and what is stored of it. -/
def Stored (crypt : Option Aead) (kind : Kind) (key : String) (v w : Json) : Prop :=
  match crypt with
  | none => w = v
  | some c => if declared kind key then Wraps c v w else w = v

/-- A config and what is stored of it. -/
def StoredAs (crypt : Option Aead) (kind : Kind) (config stored : Config) : Prop :=
  ∀ key, Option.Rel (Stored crypt kind key) (config key) (stored key)

lemma Wraps.unwrapped {c : Aead} {v w : Json} (h : Wraps c v w) : unwrapped c w = unwrapped c v := by
  cases h with
  | plain nonce hs he => simp [Upserts.unwrapped, unwrap_of_plain he]
  | other h => rfl

lemma Stored.reads {crypt : Option Aead} {kind : Kind} {key : String} {v w : Json}
    (h : Stored crypt kind key v w) : reads crypt kind key w = reads crypt kind key v := by
  unfold Stored at h
  unfold Upserts.reads
  split at h
  · rw [h]
  · split_ifs at h with hd
    · simp only [hd, if_true, h.unwrapped]
    · rw [h]

/-- **Reading back**: what was written reads as it would have without the writing. -/
theorem StoredAs.decryptSecrets {s : Store} {kind : Kind} {config stored : Config}
    (h : StoredAs s.crypt kind config stored) :
    s.decryptSecrets kind stored = s.decryptSecrets kind config := by
  funext key
  rw [decryptSecrets_apply, decryptSecrets_apply]
  have hk := h key
  generalize config key = v, stored key = w at hk
  cases hk with
  | none => rfl
  | some hk => exact congrArg some hk.reads

variable {T : Config → World Table ℕ Buf → Prop} {F : Err → World Table ℕ Buf → Prop}
  {w : World Table ℕ Buf}

lemma wp_encryptField (c : Aead) (config : Config) (f : Field) :
    (Store.encryptField c config f).wp (fun stored w' => w'.mem = w.mem ∧ ∀ key,
      if f.key = key ∧ f.type = "password" then Option.Rel (Wraps c) (config key) (stored key)
      else stored key = config key) F w := by
  by_cases ht : f.type = "password"
  · have same (h : ∀ v, config f.key = some v → ∀ s, v = .str s → s = "" ∨ isEncrypted s = true)
        (key : String) : if f.key = key ∧ f.type = "password" then
          Option.Rel (Wraps c) (config key) (config key) else config key = config key := by
      split_ifs with hk
      · rcases hv : config key with _ | v
        · exact .none
        · exact .some (.other (h v (hk.1 ▸ hv)))
      · rfl
    unfold Store.encryptField
    rw [if_neg (not_not.mpr ht)]
    split
    · next s hv =>
      split_ifs with hs
      · refine ⟨rfl, same fun v h s' hs' => ?_⟩
        cases hv.symm.trans h
        cases hs'
        exact hs
      · obtain ⟨hne, he⟩ := not_or.mp hs
        refine fun nonce => ⟨rfl, fun key => ?_⟩
        split_ifs with hk
        · obtain ⟨rfl, -⟩ := hk
          rw [hv, Function.update_self]
          exact .some (.plain nonce hne (by simpa using he))
        · exact Function.update_of_ne (fun h => hk ⟨h.symm, ht⟩) _ _
    · next hv =>
      exact ⟨rfl, same fun v h s hs => absurd (hs ▸ h) (hv s)⟩
  · rw [Store.encryptField, if_pos ht]
    exact ⟨rfl, fun key => by simp [ht]⟩

lemma wp_foldlM (c : Aead) (fields : List Field) (hn : (fields.map Field.key).Nodup)
    (config : Config) : (fields.foldlM (Store.encryptField c) config).wp
      (fun stored w' => w'.mem = w.mem ∧ ∀ key,
        if ∃ f ∈ fields, f.key = key ∧ f.type = "password" then
          Option.Rel (Wraps c) (config key) (stored key)
        else stored key = config key) F w := by
  induction fields generalizing config w with
  | nil => exact ⟨rfl, fun key => by simp⟩
  | cons f fields ih =>
    obtain ⟨hf, hn⟩ := List.nodup_cons.mp hn
    rw [List.foldlM_cons]
    refine Proc.wp_bind_of (wp_encryptField c config f) (fun mid w₁ h₁ => ?_) (fun e w₁ h => h)
    refine Proc.wp_mono (fun stored w₂ h₂ => ⟨h₂.1.trans h₁.1, fun key => ?_⟩)
      (fun e w₂ h => h) (ih hn mid)
    have hmid := h₁.2 key
    have hstored := h₂.2 key
    by_cases hk : f.key = key
    · have hrest : ¬ ∃ g ∈ fields, g.key = key ∧ g.type = "password" := by
        rintro ⟨g, hg, hgk, -⟩
        exact hf (hk ▸ hgk ▸ List.mem_map_of_mem hg)
      simp only [hrest, if_false] at hstored
      simp only [List.exists_mem_cons_iff, hrest, or_false, hstored]
      exact hmid
    · simp only [hk, false_and, if_false] at hmid
      simp only [List.exists_mem_cons_iff, hk, false_and, false_or]
      rw [hmid] at hstored
      exact hstored

/-- **Writing**: a config is encrypted key by key. -/
theorem wp_encryptSecrets (s : Store) (kind : Kind) (config : Config) :
    (s.encryptSecrets kind config).wp
      (fun stored w' => w'.mem = w.mem ∧ StoredAs s.crypt kind config stored) F w := by
  unfold Store.encryptSecrets StoredAs Stored
  cases s.crypt with
  | none => exact ⟨rfl, fun key => by cases config key <;> constructor; rfl⟩
  | some c =>
    refine Proc.wp_mono (fun stored w' h => ⟨h.1, fun key => ?_⟩) (fun e w' h => h)
      (wp_foldlM c _ (fieldsOf_nodup kind) config)
    have hk := h.2 key
    by_cases hd : declared kind key
    · have hd' : ∃ f ∈ fieldsOf kind, f.key = key ∧ f.type = "password" := hd
      simp only [hd', if_true] at hk
      simpa only [hd, if_true] using hk
    · have hd' : ¬ ∃ f ∈ fieldsOf kind, f.key = key ∧ f.type = "password" := hd
      simp only [hd', if_false] at hk
      simp only [hd, if_false, hk]
      cases config key <;> constructor
      rfl

/-! ### A request -/

/-- The config of a kind, read; without keys when there is none to read. -/
def configOf (s : Store) (t : Table) (kind : Kind) : Config :=
  match s.found t kind with
  | .ok p => p.config
  | .error _ => fun _ => none

/-- A row of a table is found in it. -/
lemma found_of_mem {s : Store} {t : Table} {r : Row} (hr : r ∈ t.rows) {config : Config}
    (hc : r.configJson = .obj config) : s.found t r.kind =
      .ok ⟨r.kind, r.enabled, s.decryptSecrets r.kind config, r.updatedAt⟩ := by
  have hf : t.find? r.kind = some r := find?_of_nodup t.nodup hr
  rw [Store.found, hf]
  show s.provider r = _
  rw [Store.provider, hc]
  rfl

/-- What an update answers when it has found the config and the flag. -/
def updated (s : Store) (now : String) (kind : Kind) (patch : UpsertPatch) (row : Config × Bool) :
    Provider :=
  ⟨kind, patch.enabled.getD row.2, s.decryptSecrets kind (s.merge row.1 patch.config), now⟩

/-- The tables an update may leave. -/
def Written (s : Store) (now : String) (kind : Kind) (patch : UpsertPatch) (row : Config × Bool)
    (t u : Table) : Prop :=
  ∃ stored, StoredAs s.crypt kind (s.merge row.1 patch.config) stored ∧
    u = t.put ⟨kind, patch.enabled.getD row.2, .obj stored, now⟩

lemma Written.found {s : Store} {now : String} {kind : Kind} {patch : UpsertPatch}
    {row : Config × Bool} {t u : Table} (h : Written s now kind patch row t u) :
    s.found u kind = .ok (updated s now kind patch row) := by
  obtain ⟨stored, hs, rfl⟩ := h
  have hf := t.find?_put ⟨kind, patch.enabled.getD row.2, .obj stored, now⟩
  simp only [Store.found, hf, Store.provider, Store.unmarshal, Except.map, hs.decryptSecrets,
    updated]

lemma Written.configOf {s : Store} {now : String} {kind : Kind} {patch : UpsertPatch}
    {row : Config × Bool} {t u : Table} (h : Written s now kind patch row t u) :
    configOf s u kind = s.decryptSecrets kind (s.merge row.1 patch.config) := by
  rw [Upserts.configOf, h.found]
  rfl

/-- The first statement, which goes on from an error. -/
lemma attempt_get (s : Store) (kind : Kind) : (s.get kind).attempt =
    (Proc.act (fun t => (s.found t kind, t)) fun r => Proc.ret (.ok r) : Op _) := by
  unfold Store.get
  refine congrArg (Proc.act _) (funext fun r => ?_)
  cases r <;> rfl

/-- What an update starts from. -/
lemma current_config {s : Store} {t : Table} {kind : Kind} {row : Config × Bool}
    (h : Store.current (s.found t kind) = .ok row) : row.1 = configOf s t kind := by
  unfold configOf
  cases hf : s.found t kind with
  | ok p => rw [hf] at h; cases h; rfl
  | error e =>
    rw [hf] at h
    cases e with
    | notFound => cases h; rfl
    | unmarshal => cases h

/-- **An update**: it fails on the row it finds, or writes the merged config and reads it back. -/
theorem wp_upsert (s : Store) (now : String) (kind : Kind) (patch : UpsertPatch)
    (w : World Table ℕ Buf) : (s.upsert now kind patch).wp
      (fun p w' => ∃ row, Store.current (s.found w.mem kind) = .ok row ∧
        p = updated s now kind patch row ∧ Written s now kind patch row w.mem w'.mem)
      (fun e w' => Store.current (s.found w.mem kind) = .error e ∧ w'.mem = w.mem) w := by
  unfold Store.upsert
  rw [attempt_get]
  cases hrow : Store.current (s.found w.mem kind) with
  | error e =>
    show (Proc.ret (Store.current (s.found w.mem kind)) >>= _).wp _ _ _
    rw [hrow]
    exact ⟨rfl, rfl⟩
  | ok row =>
    show (Proc.ret (Store.current (s.found w.mem kind)) >>= _).wp _ _ _
    rw [hrow]
    show (s.encryptSecrets kind (s.merge row.1 patch.config) >>= _).wp _ _ _
    refine Proc.wp_bind_of (wp_encryptSecrets s kind (s.merge row.1 patch.config)) ?_
      (fun e w₁ h => h)
    rintro stored w₁ ⟨hmem, hs⟩
    have hw : Written s now kind patch row w.mem
        (w₁.mem.put ⟨kind, patch.enabled.getD row.2, .obj stored, now⟩) := ⟨stored, hs, by rw [hmem]⟩
    show (Proc.ret (s.found (w₁.mem.put _) kind)).wp _ _ _
    rw [hw.found]
    exact ⟨row, rfl, rfl, hw⟩

variable (crypt : Option Aead) (collate : Kind → Kind → Bool)

/-- The answer to a request over a table. -/
def answer (v : Visit) (t : Table) : Answer :=
  let s : Store := ⟨crypt, v.token⟩
  match v.request with
  | .list => s.listed (s.list collate t)
  | .patch kind body =>
    if (kindInfoFor kind).isNone then .error 400 "unknown provider kind"
    else match body with
      | none => .error 400 "bad json"
      | some patch =>
        s.patched ((Store.current (s.found t kind)).map (updated s v.now kind patch))

/-- The tables a request may leave. -/
def Leaves (v : Visit) (t u : Table) : Prop :=
  let s : Store := ⟨crypt, v.token⟩
  match v.request with
  | .list => u = t
  | .patch kind body =>
    if (kindInfoFor kind).isNone then u = t
    else match body with
      | none => u = t
      | some patch =>
        match Store.current (s.found t kind) with
        | .error _ => u = t
        | .ok row => Written s v.now kind patch row t u

/-- **A request**: its answer is a function of the table, whatever is drawn. -/
theorem wp_handle (v : Visit) (w : World Table ℕ Buf) : (handle crypt collate v).wp
    (fun a w' => a = answer crypt collate v w.mem ∧ Leaves crypt v w.mem w'.mem)
    (fun _ _ => False) w := by
  unfold handle answer Leaves
  cases v.request with
  | list => exact ⟨rfl, rfl⟩
  | patch kind body =>
    simp only [Store.handlePatchProvider]
    split_ifs with hk
    · exact ⟨rfl, rfl⟩
    · cases body with
      | none => exact ⟨rfl, rfl⟩
      | some patch =>
        simp only [Proc.wp_bind, Proc.wp_attempt]
        refine Proc.wp_mono ?_ ?_ (wp_upsert ⟨crypt, v.token⟩ v.now kind patch w)
        · rintro p w' ⟨row, hrow, rfl, hw⟩
          simp only [hrow]
          exact ⟨rfl, hw⟩
        · rintro e w' ⟨he, hw⟩
          simp only [he]
          exact ⟨rfl, hw⟩

/-! ### Requests one after another -/

/-- The answers to requests and the table they leave. -/
inductive Served : List Visit → Table → List Answer → Table → Prop where
  | nil (t : Table) : Served [] t [] t
  | cons {v : Visit} {vs : List Visit} {t u t' : Table} {as : List Answer}
    (head : Leaves crypt v t u) (tail : Served vs u as t') :
    Served (v :: vs) t (answer crypt collate v t :: as) t'

theorem wp_serve (vs : List Visit) (w : World Table ℕ Buf) : (serve crypt collate vs).wp
    (fun as w' => Served crypt collate vs w.mem as w'.mem) (fun _ _ => False) w := by
  induction vs generalizing w with
  | nil => exact .nil w.mem
  | cons v vs ih =>
    refine Proc.wp_bind_of (wp_handle crypt collate v w) ?_ (fun e w₁ h => h)
    rintro a w₁ ⟨rfl, hv⟩
    exact Proc.wp_bind_of (ih w₁) (fun as w₂ h => .cons hv h) (fun e w₂ h => h)

/-- The same of a run. -/
lemma run_serve (vs : List Visit) (ans : ℕ → (n : ℕ) → Buf n) (w : World Table ℕ Buf) :
    ∃ as w', (serve crypt collate vs).run ans w = (.ok as, w') ∧
      Served crypt collate vs w.mem as w'.mem := by
  have h := Proc.wp_run (wp_serve crypt collate vs w) ans
  rcases hr : (serve crypt collate vs).run ans w with ⟨e | as, w'⟩ <;> rw [hr] at h
  · exact h.elim
  · exact ⟨as, w', rfl, h⟩

end Veckomenyn.Upserts
