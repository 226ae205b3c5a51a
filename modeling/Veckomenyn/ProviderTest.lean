import Veckomenyn.FirstRun
import Veckomenyn.Llm

/-!
The test of the chosen provider, and the provider a turn is given.

The test reads the row itself and goes by its config; a turn goes by the accessor of its kind.
-/

namespace Veckomenyn.ProviderTest

open Setup Llm Upserts FirstRun
open Providers (Store Kind Config kindAnthropic kindOpenAI kindOpenAICompat)

/-! ### The code -/

def buildProvider (kind : Kind) (config : Config) : Except String (Client × String) :=
  let str := Store.text config
  if kind = kindAnthropic then
    let key := str "api_key"
    if key = "" then .error "API key required"
    else
      let model := if str "model" = "" then Providers.defaultAnthropicModel else str "model"
      (newAnthropic key).map fun p => (p, model)
  else if kind = kindOpenAI then
    let key := str "api_key"
    if key = "" then .error "API key required"
    else
      let model := if str "model" = "" then Providers.defaultOpenAIModel else str "model"
      (newOpenAI "https://api.openai.com/v1" model key).map fun p => (p, model)
  else if kind = kindOpenAICompat then
    let baseURL := str "base_url"
    if baseURL = "" then .error "base URL required"
    else
      let model := str "model"
      if model = "" then .error "model required"
      else (newOpenAI baseURL model (str "api_key")).map fun p => (p, model)
  else .error "unsupported provider kind for testing"

/-- The provider a test is made with. -/
def tested (s : Store) (st : State) : Except String (Client × String) :=
  let activeKind := st.db.settings.llmProvider
  if activeKind = "" then .error "No LLM provider selected"
  else match s.found st.world.mem activeKind with
    | .error _ => .error "Provider not configured"
    | .ok p => buildProvider activeKind p.config

def testParams (model : String) : RunParams where
  model := model
  maxTokens := 512
  system := [⟨"You are a meal-planning assistant. Say hi in one sentence."⟩]
  tools := []
  messages := [newUserMessage [textBlock "Hi"]]

inductive TestAnswer where
  | failed (error : String)
  | passed (model reply : String) (inputTokens outputTokens : ℤ)

/-- The first text that is not empty. -/
def firstReply (content : List ContentBlock) : String :=
  match content.find? fun b => b.type = .text ∧ b.text ≠ "" with
  | some b => b.text
  | none => ""

/-- `runStream` is what the service makes of a request. -/
def handleTestProvider (s : Store) (runStream : Client → RunParams → Except String RunResult)
    (st : State) : TestAnswer :=
  match tested s st with
  | .error e => .failed e
  | .ok (provider, model) =>
    match runStream provider (testParams model) with
    | .error e => .failed e
    | .ok result => .passed model (firstReply result.assistantMessage.1.content)
        result.usage.inputTokens result.usage.outputTokens

/-! ### One rule for both -/

/-- The text under `model`, or the default. -/
def modelOr (config : Config) (default : String) : String :=
  if Store.text config "model" = "" then default else Store.text config "model"

/-- The provider a config makes for a kind. -/
def offered (kind : Kind) (config : Config) : Option (Client × String) :=
  let key := Store.text config "api_key"
  if kind = kindAnthropic then
    if key = "" then none
    else some (.anthropic key, modelOr config Providers.defaultAnthropicModel)
  else if kind = kindOpenAI then
    if key = "" then none
    else
      let model := modelOr config Providers.defaultOpenAIModel
      some (.openAI Providers.openAIBaseURL model key, model)
  else if kind = kindOpenAICompat then
    let baseURL := Store.text config "base_url"
    let model := Store.text config "model"
    if baseURL = "" ∨ model = "" then none
    else some (.openAI baseURL model (if key ≠ "" then key else "not-required"), model)
  else none

variable {s : Store} {t : Providers.Table}

lemma toOption_eq_some_iff {ε α : Type} {x : Except ε α} {a : α} :
    x.toOption = some a ↔ x = .ok a := by
  cases x <;> simp [Except.toOption]

lemma modelOr_ne_empty {config : Config} {default : String} (h : default ≠ "") :
    modelOr config default ≠ "" := by
  unfold modelOr
  split_ifs with hm
  · exact h
  · exact hm

lemma offered_default (kind : Kind) : offered kind (fun _ => none) = none := by
  simp [offered, Store.text]

lemma anthropicModel_eq : s.anthropicModel t =
    modelOr (configOf s t kindAnthropic) Providers.defaultAnthropicModel := by
  unfold Store.anthropicModel configOf modelOr
  cases s.found t kindAnthropic with
  | error e => rfl
  | ok p => exact ite_not _ _ _

/-! A config of each kind, however it came by its client. -/

section

variable {config : Config}

lemma offered_anthropic : offered kindAnthropic config =
    if Store.text config "api_key" = "" then none
    else ((newAnthropic (Store.text config "api_key")).map fun p =>
      (p, modelOr config Providers.defaultAnthropicModel)).toOption := by
  rw [offered, if_pos rfl]
  split_ifs with h
  · rfl
  · rw [newAnthropic, if_neg h]
    rfl

lemma offered_openAI : offered kindOpenAI config =
    if Store.text config "api_key" = "" then none
    else ((newOpenAI Providers.openAIBaseURL (modelOr config Providers.defaultOpenAIModel)
      (Store.text config "api_key")).map fun p =>
        (p, modelOr config Providers.defaultOpenAIModel)).toOption := by
  rw [offered, if_neg (by decide), if_pos rfl]
  split_ifs with h
  · rfl
  · rw [newOpenAI_ok _ (by decide) (modelOr_ne_empty (by decide)), if_pos h]
    rfl

lemma offered_openAICompat : offered kindOpenAICompat config =
    if Store.text config "base_url" = "" ∨ Store.text config "model" = "" then none
    else ((newOpenAI (Store.text config "base_url") (Store.text config "model")
      (Store.text config "api_key")).map fun p => (p, Store.text config "model")).toOption := by
  rw [offered, if_neg (by decide), if_neg (by decide), if_pos rfl]
  by_cases h : Store.text config "base_url" = "" ∨ Store.text config "model" = ""
  · simp only [if_pos h]
  · rw [newOpenAI_ok _ (not_or.mp h).1 (not_or.mp h).2]
    rfl

lemma offered_other {kind : Kind} (ha : kind ≠ kindAnthropic) (ho : kind ≠ kindOpenAI)
    (hc : kind ≠ kindOpenAICompat) : offered kind config = none := by
  rw [offered, if_neg ha, if_neg ho, if_neg hc]

end

lemma toOption_buildProvider (kind : Kind) (config : Config) :
    (buildProvider kind config).toOption = offered kind config := by
  have hor (default : String) : (if Store.text config "model" = "" then default
      else Store.text config "model") = modelOr config default := rfl
  unfold buildProvider
  simp only [hor]
  split_ifs with ha hkey ho hkey' hc hbase hmodel
  · rw [ha, offered_anthropic, if_pos hkey]
    rfl
  · rw [ha, offered_anthropic, if_neg hkey]
  · rw [ho, offered_openAI, if_pos hkey']
    rfl
  · rw [ho, offered_openAI, if_neg hkey']
    rfl
  · rw [hc, offered_openAICompat, if_pos (.inl hbase)]
    rfl
  · rw [hc, offered_openAICompat, if_pos (.inr hmodel)]
    rfl
  · rw [hc, offered_openAICompat, if_neg (not_or.mpr ⟨hbase, hmodel⟩)]
  · rw [offered_other ha ho hc]
    rfl

lemma toOption_tested (st : State) : (tested s st).toOption =
    offered st.db.settings.llmProvider
      (configOf s st.world.mem st.db.settings.llmProvider) := by
  unfold tested
  generalize st.db.settings.llmProvider = kind
  simp only []
  split_ifs with hkind
  · subst hkind
    rfl
  · unfold configOf
    cases s.found st.world.mem kind with
    | error e => exact (offered_default kind).symm
    | ok p => exact toOption_buildProvider kind p.config

lemma toOption_resolveProvider (quote : String → String) (st : State) :
    (resolveProvider quote s st).toOption = offered st.db.settings.llmProvider
      (configOf s st.world.mem st.db.settings.llmProvider) := by
  unfold resolveProvider
  generalize st.db.settings.llmProvider = kind
  simp only []
  split_ifs with ha hkey ho hc
  · rw [anthropicAPIKey_eq] at hkey
    rw [ha, offered_anthropic, if_pos hkey]
    rfl
  · rw [anthropicAPIKey_eq] at hkey
    rw [ha, offered_anthropic, if_neg hkey, anthropicAPIKey_eq, anthropicModel_eq]
  · rw [ho, offered_openAI, openAIConfig_eq]
    by_cases h : Store.text (configOf s st.world.mem kindOpenAI) "api_key" = ""
    · simp only [if_pos h]
      rfl
    · simp only [if_neg h]
      rfl
  · rw [hc, offered_openAICompat, openAICompatConfig_eq]
    split_ifs <;> rfl
  · rw [offered_other ha ho hc]
    rfl

/-- **The test of a provider**: it gets one when a turn does, and the same one. -/
theorem tested_iff_resolved (quote : String → String) (s : Store) (st : State) :
    (∀ p, tested s st = .ok p ↔ resolveProvider quote s st = .ok p) ∧
    ∀ runStream model reply input output,
      handleTestProvider s runStream st = .passed model reply input output →
      ∃ provider result, resolveProvider quote s st = .ok (provider, model) ∧
        runStream provider (testParams model) = .ok result := by
  have hiff (p : Client × String) : tested s st = .ok p ↔ resolveProvider quote s st = .ok p := by
    rw [← toOption_eq_some_iff, toOption_tested, ← toOption_resolveProvider quote,
      toOption_eq_some_iff]
  refine ⟨hiff, fun runStream model reply input output h => ?_⟩
  unfold handleTestProvider at h
  cases htest : tested s st with
  | error e => simp [htest] at h
  | ok p =>
    obtain ⟨provider, model'⟩ := p
    simp only [htest] at h
    cases hrun : runStream provider (testParams model') with
    | error e => simp [hrun] at h
    | ok result =>
      simp only [hrun, TestAnswer.passed.injEq] at h
      obtain ⟨rfl, -⟩ := h
      exact ⟨provider, result, (hiff _).mp htest, hrun⟩

end Veckomenyn.ProviderTest
