import Mathlib.Data.List.Induction
import Veckomenyn.Echo
import Veckomenyn.Setup

/-!
Whether the wizard is gone before a chat can run.

The status asks only whether a provider is chosen, and the migrations choose one. A turn asks for
its key, which is there when the patches have put it there.
-/

namespace Veckomenyn.FirstRun

open Schema Sql Txn Crypto Remote Upserts Echo Setup
open Providers hiding Table Request Answer internalError handle serve

/-! ### Patches of the settings -/

/-- The rows the table's checks let through. -/
structure Valid (s : Settings) : Prop where
  dinners : 1 ≤ s.defaultDinners ∧ s.defaultDinners ≤ 14
  weekday : 1 ≤ s.defaultDeliveryWeekday ∧ s.defaultDeliveryWeekday ≤ 7
  servings : 1 ≤ s.defaultServings ∧ s.defaultServings ≤ 20
  language : s.language ∈ ["sv", "en"]

lemma valid_migrated : Valid migrated.settings := by
  constructor <;> decide

def within (lo hi : ℤ) (v : Option ℤ) : Bool := v.all fun n => lo ≤ n && n ≤ hi

lemma within_iff {lo hi : ℤ} {v : Option ℤ} :
    within lo hi v = true ↔ ∀ n, v = some n → lo ≤ n ∧ n ≤ hi := by
  cases v <;> simp [within]

lemma within_mono {lo hi lo' hi' : ℤ} {v : Option ℤ} (h : within lo hi v = true) (hlo : lo' ≤ lo)
    (hhi : hi ≤ hi') : within lo' hi' v = true := by
  rw [within_iff] at h ⊢
  intro n hn
  have := h n hn
  omega

/-- The patches the database takes: every column they name passes its own check. -/
def accepted (u : HouseholdSettingsUpdate) : Bool :=
  within 1 14 u.defaultDinners && within 1 7 u.defaultDeliveryWeekday &&
    within (-2147483648) 2147483647 u.defaultOrderOffsetDays && within 1 20 u.defaultServings &&
    u.language.all fun l => l ∈ ["sv", "en"]

lemma check_iff {s : Settings} : check s = .ok () ↔ Valid s := by
  unfold check
  constructor
  · intro h
    split_ifs at h with hd hw hs hl
    exact ⟨hd, hw, hs, hl⟩
  · rintro ⟨hd, hw, hs, hl⟩
    rw [if_neg (not_not.mpr hd), if_neg (not_not.mpr hw), if_neg (not_not.mpr hs),
      if_neg (not_not.mpr hl)]

lemma argument_iff {column : String} {v : Option ℤ} :
    argument column v = .ok () ↔ within (-2147483648) 2147483647 v = true := by
  rw [within_iff]
  cases v with
  | none => simp [argument]
  | some n =>
    by_cases h : -2147483648 ≤ n ∧ n ≤ 2147483647
    · simp [argument, int4, h, Except.map]
    · simp only [argument, int4, h, if_false, Except.map]
      simpa using h

variable {u : HouseholdSettingsUpdate} {s : Settings}

/-- Over a valid row a patch is judged by what it names. -/
lemma valid_set_iff (hv : Valid s) : Valid (u.set s) ↔
    within 1 14 u.defaultDinners = true ∧ within 1 7 u.defaultDeliveryWeekday = true ∧
      within 1 20 u.defaultServings = true ∧
      (u.language.all fun l => l ∈ ["sv", "en"]) = true := by
  have named {lo hi n : ℤ} (h : lo ≤ n ∧ n ≤ hi) (v : Option ℤ) :
      (lo ≤ v.getD n ∧ v.getD n ≤ hi) ↔ within lo hi v = true := by
    cases v <;> simp [within, h]
  have hlang : u.language.getD s.language ∈ ["sv", "en"] ↔
      (u.language.all fun l => l ∈ ["sv", "en"]) = true := by
    cases u.language with
    | none => simpa using hv.language
    | some l => simp
  constructor
  · intro h
    exact ⟨(named hv.dinners _).mp h.dinners, (named hv.weekday _).mp h.weekday,
      (named hv.servings _).mp h.servings, hlang.mp h.language⟩
  · rintro ⟨hd, hw, hs, hl⟩
    exact ⟨(named hv.dinners _).mpr hd, (named hv.weekday _).mpr hw,
      (named hv.servings _).mpr hs, hlang.mpr hl⟩

lemma accepted_iff (hv : Valid s) : accepted u = true ↔
    Valid (u.set s) ∧ within (-2147483648) 2147483647 u.defaultOrderOffsetDays = true := by
  rw [valid_set_iff hv, accepted]
  simp only [Bool.and_eq_true]
  constructor
  · rintro ⟨⟨⟨⟨hd, hw⟩, ho⟩, hs⟩, hl⟩
    exact ⟨⟨hd, hw, hs, hl⟩, ho⟩
  · rintro ⟨⟨hd, hw, hs, hl⟩, ho⟩
    exact ⟨⟨⟨⟨hd, hw⟩, ho⟩, hs⟩, hl⟩

lemma set_of_isEmpty (h : u.isEmpty = true) : u.set s = s := by
  simp only [HouseholdSettingsUpdate.isEmpty, Bool.and_eq_true, Option.isNone_iff_eq_none] at h
  obtain ⟨⟨⟨⟨⟨⟨hd, hw⟩, ho⟩, hs⟩, hl⟩, hp⟩, hn⟩ := h
  simp [HouseholdSettingsUpdate.set, hd, hw, ho, hs, hl, hp, hn]

lemma run_updateSettings {d : Db} (hv : Valid d.settings) (ha : accepted u = true) :
    (updateSettings u).run d = .ok ([.settings (u.set d.settings)], ()) := by
  obtain ⟨hset, ho⟩ := (accepted_iff hv).mp ha
  obtain ⟨hd, hw, hs, -⟩ := (valid_set_iff hv).mp hset
  unfold updateSettings
  simp only [argument_iff.mpr (within_mono hd (by omega) (by omega)),
    argument_iff.mpr (within_mono hw (by omega) (by omega)), argument_iff.mpr ho,
    argument_iff.mpr (within_mono hs (by omega) (by omega)), check_iff.mpr hset]
  rfl

lemma run_updateSettings_error {d : Db} (hv : Valid d.settings) (ha : accepted u = false) :
    ∃ e, (updateSettings u).run d = .error e := by
  unfold updateSettings
  have stop {α : Type} {x : Except DbError Unit} {f : Unit → Except DbError α}
      (h : x = .ok () → ∃ e, f () = .error e) : ∃ e, (x >>= f) = .error e := by
    cases x with
    | error e => exact ⟨e, rfl⟩
    | ok _ => exact h rfl
  refine stop fun _ => stop fun _ => stop fun ho => stop fun _ => stop fun hc => ?_
  have h := (accepted_iff hv).mpr ⟨check_iff.mp hc, argument_iff.mp ho⟩
  rw [ha] at h
  cases h

/-- **A patch of the settings**: all of it is stored, or nothing. -/
theorem settings_patch {d : Db} (hv : Valid d.settings) :
    (perform (handlePatchSettings (.ok u)) d).2.settings =
      if accepted u = true then u.set d.settings else d.settings := by
  simp only [perform, handlePatchSettings, updateHouseholdSettings]
  by_cases he : u.isEmpty = true
  · rw [if_pos he, set_of_isEmpty he, ite_self]
    rfl
  · rw [if_neg he]
    cases ha : accepted u with
    | true =>
      rw [if_pos rfl, Prog.run_bind, Prog.run_query, run_updateSettings hv ha]
      rfl
    | false =>
      obtain ⟨e, hrun⟩ := run_updateSettings_error hv ha
      rw [if_neg Bool.false_ne_true, Prog.run_bind, Prog.run_query, hrun]

/-! ### Patches of the integrations -/

variable {crypt : Option Aead} {collate : Kind → Kind → Bool} {ans : ℕ → (n : ℕ) → Buf n}

/-- A table of configs is read whatever it holds for a kind. -/
lemma current_ok {t : Providers.Table} (h : Formed t) (s : Store) (kind : Kind) :
    ∃ row, Store.current (s.found t kind) = .ok row := by
  unfold Store.found
  cases hf : t.find? kind with
  | none => exact ⟨_, rfl⟩
  | some r =>
    obtain ⟨-, config, hc⟩ := h r (Providers.Table.mem_of_find? hf).1
    simp only [Store.provider, hc]
    exact ⟨_, rfl⟩

/-- What a request to the integrations leaves of a kind's config, read. -/
def save (crypt : Option Aead) (configs : Kind → Config) (v : Visit) : Kind → Config :=
  match v.request with
  | .patch kind (some patch) =>
    if (kindInfoFor kind).isNone then configs
    else
      let s : Store := ⟨crypt, v.token⟩
      Function.update configs kind (s.decryptSecrets kind (s.merge (configs kind) patch.config))
  | _ => configs

/-- **A patch of the integrations**: what it leaves depends on what was read before. -/
theorem configOf_leaves {v : Visit} {t t' : Providers.Table} (h : Formed t)
    (hl : Leaves crypt v t t') (token : Buf 16) :
    configOf ⟨crypt, token⟩ t' = save crypt (configOf ⟨crypt, token⟩ t) v := by
  unfold Leaves at hl
  unfold save
  cases hreq : v.request with
  | list =>
    simp only [hreq] at hl
    rw [hl]
  | patch kind body =>
    simp only [hreq] at hl
    cases body with
    | none =>
      simp only [ite_self] at hl
      rw [hl]
    | some patch =>
      by_cases hk : (kindInfoFor kind).isNone = true
      · simp only [hk, if_true] at hl ⊢
        rw [hl]
      · simp only [hk, Bool.false_eq_true, if_false] at hl ⊢
        obtain ⟨row, hrow⟩ := current_ok h ⟨crypt, v.token⟩ kind
        simp only [hrow] at hl
        funext k
        by_cases hkind : k = kind
        · subst hkind
          rw [Function.update_self]
          exact hl.configOf.trans (by rw [current_config hrow]; rfl)
        · rw [Function.update_of_ne hkind]
          obtain ⟨stored, -, rfl⟩ := hl
          have hfind := @Providers.Table.find?_put_of_ne t
            ⟨kind, patch.enabled.getD row.2, .obj stored, v.now⟩ k hkind
          simp only [configOf, Store.found, hfind]

/-! ### What a turn asks for -/

/-- A kind a turn can be run with, and what it cannot do without. -/
def Usable (kind : Kind) (config : Config) : Prop :=
  ∃ info, kindInfoFor kind = some info ∧ info.category = "llm" ∧
    ∀ f ∈ info.fields, f.required = true → Store.text config f.key ≠ ""

lemma kindInfoFor_some {kind : Kind} {info : KindInfo} (h : kindInfoFor kind = some info) :
    info ∈ known ∧ info.kind = kind :=
  ⟨List.mem_of_find?_eq_some h, by simpa using List.find?_some h⟩

lemma usable_anthropic {config : Config} :
    Usable kindAnthropic config ↔ Store.text config "api_key" ≠ "" := by
  have hinfo : kindInfoFor kindAnthropic =
      some ⟨kindAnthropic, "llm", "provider.anthropic.name", anthropicFields⟩ := rfl
  simp [Usable, hinfo, anthropicFields]

lemma usable_openAI {config : Config} :
    Usable kindOpenAI config ↔ Store.text config "api_key" ≠ "" := by
  have hinfo : kindInfoFor kindOpenAI =
      some ⟨kindOpenAI, "llm", "provider.openai.name", openAIFields⟩ := rfl
  simp [Usable, hinfo, openAIFields]

lemma usable_openAICompat {config : Config} : Usable kindOpenAICompat config ↔
    Store.text config "base_url" ≠ "" ∧ Store.text config "model" ≠ "" := by
  have hinfo : kindInfoFor kindOpenAICompat =
      some ⟨kindOpenAICompat, "llm", "provider.openai_compat.name", openAICompatFields⟩ := rfl
  simp [Usable, hinfo, openAICompatFields]

lemma not_usable {kind : Kind} {config : Config} (ha : kind ≠ kindAnthropic)
    (ho : kind ≠ kindOpenAI) (hc : kind ≠ kindOpenAICompat) : ¬ Usable kind config := by
  rintro ⟨info, hinfo, hcat, -⟩
  obtain ⟨hmem, rfl⟩ := kindInfoFor_some hinfo
  have hllm : ∀ info ∈ known, info.category = "llm" →
      info.kind ∈ [kindAnthropic, kindOpenAI, kindOpenAICompat] := by decide
  simpa [ha, ho, hc] using hllm info hmem hcat

variable {store : Store} {t : Providers.Table}

lemma anthropicAPIKey_eq :
    store.anthropicAPIKey t = Store.text (configOf store t kindAnthropic) "api_key" := by
  unfold Store.anthropicAPIKey configOf
  cases store.found t kindAnthropic <;> rfl

/-- The model of the config, or the default. -/
lemma openAIConfig_eq : store.openAIConfig t =
    if Store.text (configOf store t kindOpenAI) "api_key" = "" then none
    else some ⟨openAIBaseURL, Store.text (configOf store t kindOpenAI) "api_key",
      if Store.text (configOf store t kindOpenAI) "model" = "" then defaultOpenAIModel
      else Store.text (configOf store t kindOpenAI) "model"⟩ := by
  unfold Store.openAIConfig configOf
  cases store.found t kindOpenAI <;> rfl

lemma openAICompatConfig_eq : store.openAICompatConfig t =
    if Store.text (configOf store t kindOpenAICompat) "base_url" = "" ∨
        Store.text (configOf store t kindOpenAICompat) "model" = "" then none
    else some ⟨Store.text (configOf store t kindOpenAICompat) "base_url",
      Store.text (configOf store t kindOpenAICompat) "api_key",
      Store.text (configOf store t kindOpenAICompat) "model"⟩ := by
  unfold Store.openAICompatConfig configOf
  cases store.found t kindOpenAICompat <;> rfl

lemma newOpenAI_ok {baseURL model : String} (apiKey : String) (hb : baseURL ≠ "") (hm : model ≠ "") :
    newOpenAI baseURL model apiKey =
      .ok (.openAI baseURL model (if apiKey ≠ "" then apiKey else "not-required")) := by
  rw [newOpenAI, if_neg hb, if_neg hm]

/-- **A provider for a turn**: there is one exactly when the chosen kind has what it needs. -/
theorem resolveProvider_iff (quote : String → String) (st : State) :
    (∃ p, resolveProvider quote store st = .ok p) ↔ Usable st.db.settings.llmProvider
      (configOf store st.world.mem st.db.settings.llmProvider) := by
  unfold resolveProvider
  generalize st.db.settings.llmProvider = kind
  simp only []
  split_ifs with ha hkey ho hc
  · subst ha
    rw [usable_anthropic, ← anthropicAPIKey_eq]
    simp [hkey]
  · subst ha
    rw [usable_anthropic, ← anthropicAPIKey_eq]
    simp [hkey, newAnthropic, Except.map]
  · subst ho
    rw [usable_openAI, openAIConfig_eq]
    by_cases h : Store.text (configOf store st.world.mem kindOpenAI) "api_key" = ""
    · simp [h]
    · have hurl : openAIBaseURL ≠ "" := by decide
      have hmodel (m : String) : (if m = "" then defaultOpenAIModel else m) ≠ "" := by
        split_ifs with hm
        · decide
        · exact hm
      simp only [h, if_false, newOpenAI_ok _ hurl (hmodel _)]
      simp [Except.map, h]
  · subst hc
    rw [usable_openAICompat, openAICompatConfig_eq]
    split_ifs with h
    · rcases h with h | h <;> simp [h]
    · obtain ⟨hb, hm⟩ := not_or.mp h
      simp [hb, hm, newOpenAI_ok _ hb hm, Except.map]
  · simp [not_usable ha ho hc]

/-! ### Every run -/

/-- The provider the settings name, by the patches the database took. -/
def choose (chosen : Kind) : Setup.Request → Kind
  | .settings (.ok u) => if accepted u = true then u.llmProvider.getD chosen else chosen
  | _ => chosen

def chosen (rs : List Setup.Request) : Kind := rs.foldl choose kindAnthropic

def saveAll (crypt : Option Aead) (configs : Kind → Config) : Setup.Request → Kind → Config
  | .integration v => save crypt configs v
  | .settings _ => configs

/-- The configs the patches have made, read. -/
def saved (crypt : Option Aead) (rs : List Setup.Request) : Kind → Config :=
  rs.foldl (saveAll crypt) fun _ _ => none

/-- What a state is known to hold after requests. -/
structure Holds (crypt : Option Aead) (rs : List Setup.Request) (st : State) : Prop where
  valid : Valid st.db.settings
  formed : Formed st.world.mem
  chosen : st.db.settings.llmProvider = chosen rs
  saved (token : Buf 16) : configOf ⟨crypt, token⟩ st.world.mem = saved crypt rs

lemma holds_fresh : Holds crypt [] fresh where
  valid := valid_migrated
  formed := fun _ hr => absurd hr List.not_mem_nil
  chosen := rfl
  saved _ := rfl

/-- One request. -/
lemma holds_serve {rs : List Setup.Request} {st : State} (h : Holds crypt rs st)
    (r : Setup.Request) : Holds crypt (rs ++ [r]) (serve crypt collate ans st r) := by
  have hchosen : FirstRun.chosen (rs ++ [r]) = choose (FirstRun.chosen rs) r := by
    simp [FirstRun.chosen, List.foldl_append]
  have hsaved : FirstRun.saved crypt (rs ++ [r]) = saveAll crypt (FirstRun.saved crypt rs) r := by
    simp [FirstRun.saved, List.foldl_append]
  cases r with
  | settings body =>
    have hsettings : Valid (serve crypt collate ans st (.settings body)).db.settings ∧
        (serve crypt collate ans st (.settings body)).db.settings.llmProvider =
          choose st.db.settings.llmProvider (.settings body) := by
      cases body with
      | error e => exact ⟨h.valid, rfl⟩
      | ok u =>
        simp only [Setup.serve, choose, settings_patch h.valid]
        split_ifs with ha
        · exact ⟨((accepted_iff h.valid).mp ha).1, rfl⟩
        · exact ⟨h.valid, rfl⟩
    exact ⟨hsettings.1, h.formed, by rw [hsettings.2, h.chosen, hchosen],
      fun token => by rw [hsaved]; exact h.saved token⟩
  | integration v =>
    have hleaves : Leaves crypt v st.world.mem
        (serve crypt collate ans st (.integration v)).world.mem := by
      have hwp := Proc.wp_run (wp_handle crypt collate v st.world) ans
      simp only [Setup.serve]
      rcases hrun : (Providers.handle crypt collate v).run ans st.world with ⟨e | a, w⟩ <;>
        rw [hrun] at hwp
      · exact hwp.elim
      · exact hwp.2
    exact ⟨h.valid, h.formed.leaves hleaves, by rw [hchosen]; exact h.chosen, fun token => by
      rw [configOf_leaves h.formed hleaves token, h.saved token, hsaved]; rfl⟩

lemma holds_reached (rs : List Setup.Request) : Holds crypt rs (reached crypt collate ans rs) := by
  induction rs using List.reverseRecOn with
  | nil => exact holds_fresh
  | append_singleton rs r ih =>
    rw [reached_snoc]
    exact holds_serve ih r

/-- The wizard is gone when a provider is chosen. -/
lemma setupComplete_iff (rs : List Setup.Request) :
    (handleGetSetupStatus (reached crypt collate ans rs)).setupComplete = true ↔ chosen rs ≠ "" := by
  have h : Holds crypt rs (reached crypt collate ans rs) := holds_reached rs
  simp [handleGetSetupStatus, h.chosen]

/-- **The wizard and the chat**: a chat can run whenever the wizard is gone exactly when the settings
name no provider, or name one the patches have given what it needs. -/
theorem complete_usable_iff (crypt : Option Aead) (collate : Kind → Kind → Bool)
    (ans : ℕ → (n : ℕ) → Buf n) (quote : String → String) (token : Buf 16)
    (rs : List Setup.Request) :
    ((handleGetSetupStatus (reached crypt collate ans rs)).setupComplete = true →
      ∃ p, resolveProvider quote ⟨crypt, token⟩ (reached crypt collate ans rs) = .ok p) ↔
      chosen rs = "" ∨ Usable (chosen rs) (saved crypt rs (chosen rs)) := by
  have h : Holds crypt rs (reached crypt collate ans rs) := holds_reached rs
  rw [setupComplete_iff, resolveProvider_iff, h.chosen, h.saved token]
  by_cases he : chosen rs = "" <;> simp [he]

/-- On a database the migrations have just made, the wizard is gone and no chat can run. -/
theorem not_complete_usable :
    (handleGetSetupStatus
      (reached none (fun _ _ => true) (fun _ => MasterKey.zeros) [])).setupComplete = true ∧
    ¬ ∃ p, resolveProvider id ⟨none, MasterKey.zeros 16⟩
      (reached none (fun _ _ => true) (fun _ => MasterKey.zeros) []) = .ok p := by
  refine ⟨by decide, ?_⟩
  rintro ⟨p, hp⟩
  cases hp

end Veckomenyn.FirstRun
