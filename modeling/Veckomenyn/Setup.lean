import Veckomenyn.Providers
import Veckomenyn.ReadTools

/-!
The first run: the settings, the provider a turn is given, and the flag the wizard goes by.

The provider is chosen in the settings, what it needs is among the integrations. The rows of the
family are only counted here.
-/

namespace Veckomenyn.Setup

open Schema Sql Txn Crypto Remote
open Providers hiding Table Request Answer internalError handle serve

/-! ### The settings -/

/-- Nothing is a column left as it is. -/
structure HouseholdSettingsUpdate where
  defaultDinners : Option ℤ := none
  defaultDeliveryWeekday : Option ℤ := none
  defaultOrderOffsetDays : Option ℤ := none
  defaultServings : Option ℤ := none
  language : Option String := none
  llmProvider : Option String := none
  notesMd : Option String := none

namespace HouseholdSettingsUpdate

variable (u : HouseholdSettingsUpdate)

def isEmpty : Bool :=
  u.defaultDinners.isNone && u.defaultDeliveryWeekday.isNone && u.defaultOrderOffsetDays.isNone &&
    u.defaultServings.isNone && u.language.isNone && u.llmProvider.isNone && u.notesMd.isNone

/-- The row with the update's columns. -/
def set (s : Settings) : Settings where
  defaultDinners := u.defaultDinners.getD s.defaultDinners
  defaultDeliveryWeekday := u.defaultDeliveryWeekday.getD s.defaultDeliveryWeekday
  defaultOrderOffsetDays := u.defaultOrderOffsetDays.getD s.defaultOrderOffsetDays
  defaultServings := u.defaultServings.getD s.defaultServings
  language := u.language.getD s.language
  llmProvider := u.llmProvider.getD s.llmProvider
  notesMd := u.notesMd.getD s.notesMd

end HouseholdSettingsUpdate

/-- The argument of a column, when there is one. -/
def argument (column : String) : Option ℤ → Except DbError Unit
  | none => .ok ()
  | some n => (int4 column n).map fun _ => ()

/-- The `CHECK`s of the table. -/
def check (s : Settings) : Except DbError Unit :=
  if ¬(1 ≤ s.defaultDinners ∧ s.defaultDinners ≤ 14) then .error (.check "default_dinners")
  else if ¬(1 ≤ s.defaultDeliveryWeekday ∧ s.defaultDeliveryWeekday ≤ 7) then
    .error (.check "default_delivery_weekday")
  else if ¬(1 ≤ s.defaultServings ∧ s.defaultServings ≤ 20) then
    .error (.check "default_servings")
  else if s.language ∉ ["sv", "en"] then .error (.check "language")
  else .ok ()

def updateSettings (u : HouseholdSettingsUpdate) : Stmt Unit where
  label := .updateSettings
  run d := do
    argument "default_dinners" u.defaultDinners
    argument "default_delivery_weekday" u.defaultDeliveryWeekday
    argument "default_order_offset_days" u.defaultOrderOffsetDays
    argument "default_servings" u.defaultServings
    check (u.set d.settings)
    .ok ([.settings (u.set d.settings)], ())

/-- The patch names the columns of the update. -/
abbrev SettingsPatch := HouseholdSettingsUpdate

inductive Resp where
  | error (code : ℕ) (text : String)
  | json (settings : Settings)
deriving DecidableEq, Repr

def internalError : Resp := .error 500 "internal server error"

section

variable {Q : Type} {A : Q → Type}

def updateHouseholdSettings {ε : Type} (u : HouseholdSettingsUpdate) (fail : DbError → ε) :
    Prog Q A ε Unit :=
  if u.isEmpty then pure () else Prog.query (updateSettings u) fail

def handleGetSettings : Prog Q A Resp Resp := do
  let settings ← Prog.query ReadTools.householdSettings fun _ => internalError
  pure (.json settings)

def handlePatchSettings (body : Except String SettingsPatch) : Prog Q A Resp Resp :=
  match body with
  | .error e => Prog.fail (.error 400 ("bad json: " ++ e))
  | .ok p => do
    updateHouseholdSettings p fun _ => internalError
    let settings ← Prog.query ReadTools.householdSettings fun _ => internalError
    pure (.json settings)

end

/-! ### The provider of a turn -/

/-- A provider by what it is made of. -/
inductive Client where
  | anthropic (apiKey : String)
  | openAI (baseURL model apiKey : String)
deriving DecidableEq, Repr

def newAnthropic (apiKey : String) : Except String Client :=
  if apiKey = "" then .error "anthropic API key required" else .ok (.anthropic apiKey)

def newOpenAI (baseURL model apiKey : String) : Except String Client :=
  if baseURL = "" then .error "base URL required"
  else if model = "" then .error "model required"
  else .ok (.openAI baseURL model (if apiKey ≠ "" then apiKey else "not-required"))

/-- What the server keeps; the world holds the integrations and the bytes drawn. -/
structure State where
  db : Db
  familyMembers : ℕ
  world : World Providers.Table ℕ Buf

/-- `quote` is Go's `%q`. -/
def resolveProvider (quote : String → String) (s : Store) (st : State) :
    Except String (Client × String) :=
  let kind := st.db.settings.llmProvider
  let t := st.world.mem
  if kind = kindAnthropic then
    let key := s.anthropicAPIKey t
    if key = "" then
      .error "anthropic API key not configured (set in Settings -> Integrations)"
    else (newAnthropic key).map fun p => (p, s.anthropicModel t)
  else if kind = kindOpenAI then
    match s.openAIConfig t with
    | none => .error "openAI API key not configured (set in Settings -> Integrations)"
    | some cfg => (newOpenAI cfg.baseURL cfg.model cfg.apiKey).map fun p => (p, cfg.model)
  else if kind = kindOpenAICompat then
    match s.openAICompatConfig t with
    | none => .error "openAI-compatible provider not configured (set in Settings -> Integrations)"
    | some cfg => (newOpenAI cfg.baseURL cfg.model cfg.apiKey).map fun p => (p, cfg.model)
  else .error ("unknown LLM provider " ++ quote kind ++ " (set in Settings -> Integrations)")

/-! ### The status -/

structure SetupStatusDTO where
  setupComplete : Bool
  hasLLMProvider : Bool
  hasPreferences : Bool
  hasFamilyMembers : Bool
deriving DecidableEq, Repr

def handleGetSetupStatus (st : State) : SetupStatusDTO :=
  let hasLLM := st.db.settings.llmProvider ≠ ""
  ⟨hasLLM, hasLLM, 0 < st.db.principles.rows.length, 0 < st.familyMembers⟩

/-! ### Requests -/

/-- The database the migrations leave. -/
def migrated : Db where
  weeks := Rows.Table.empty
  dinners := Rows.Table.empty
  exceptions := Rows.Table.empty
  retrospectives := Rows.Table.empty
  ratings := Rows.Table.empty
  cartItems := Rows.Table.empty
  dishes := Rows.Table.empty
  principles := Rows.Table.empty
  settings := ⟨7, 1, -1, 4, "sv", "anthropic", ""⟩

def fresh : State := ⟨migrated, 0, ⟨Providers.Table.empty, []⟩⟩

/-- A patch of the settings, or a request to the integrations. -/
inductive Request where
  | settings (body : Except String SettingsPatch)
  | integration (v : Visit)

variable (crypt : Option Aead) (collate : Kind → Kind → Bool) (ans : ℕ → (n : ℕ) → Buf n)

/-- What a request leaves, with `ans` for the bytes drawn. -/
def serve (st : State) : Request → State
  | .settings body => { st with db := (perform (handlePatchSettings body) st.db).2 }
  | .integration v =>
    { st with world := ((Providers.handle crypt collate v).run ans st.world).2 }

def reached (rs : List Request) : State := rs.foldl (serve crypt collate ans) fresh

lemma reached_snoc (rs : List Request) (r : Request) :
    reached crypt collate ans (rs ++ [r]) =
      serve crypt collate ans (reached crypt collate ans rs) r := by
  simp [reached, List.foldl_append]

end Veckomenyn.Setup
