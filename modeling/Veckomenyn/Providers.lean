import Mathlib.Data.List.Nodup
import Mathlib.Data.Rat.Defs
import Veckomenyn.Crypto
import Veckomenyn.Remote

/-!
The integrations: their rows, their secrets and the two routes that show and change them.

A config is a map from keys to JSON values. Ranging over one visits each key once, in no order, so
a loop over a map is given key by key. Every statement is a section of its own; what is asked of
the outside is random bytes.
-/

namespace Veckomenyn.Providers

open Crypto Remote

/-! ### The kinds -/

abbrev Kind := String

def kindAnthropic : Kind := "anthropic"
def kindOpenAI : Kind := "openai"
def kindOpenAICompat : Kind := "openai_compat"
def kindWillys : Kind := "willys"

structure FieldOption where
  value : String
  label : String

structure Field where
  key : String
  label : String
  type : String
  options : List FieldOption := []
  default : String := ""
  placeholder : String := ""
  required : Bool := false
  hint : String := ""

structure KindInfo where
  kind : Kind
  category : String
  displayName : String
  fields : List Field

def defaultAnthropicModel : String := "claude-sonnet-4-6"
def defaultOpenAIModel : String := "gpt-5.4"
def openAIBaseURL : String := "https://api.openai.com/v1"

def anthropicFields : List Field := [
  { key := "api_key", label := "provider.api_key", type := "password", placeholder := "sk-ant-…",
    required := true },
  { key := "model", label := "provider.model", type := "select", default := defaultAnthropicModel,
    hint := "provider.anthropic.model_hint",
    options := [⟨"claude-haiku-4-5", "provider.anthropic.haiku"⟩,
      ⟨"claude-sonnet-4-6", "provider.anthropic.sonnet"⟩,
      ⟨"claude-opus-4-7", "provider.anthropic.opus"⟩] }]

def openAIFields : List Field := [
  { key := "api_key", label := "provider.api_key", type := "password", placeholder := "sk-…",
    required := true },
  { key := "model", label := "provider.model", type := "select", default := defaultOpenAIModel,
    hint := "provider.openai.model_hint",
    options := [⟨"gpt-4.1-nano", "GPT-4.1 Nano ($0.10/$0.40)"⟩,
      ⟨"gpt-4.1-mini", "GPT-4.1 Mini ($0.40/$1.60)"⟩,
      ⟨"gpt-5.4-nano", "GPT-5.4 Nano ($0.20/$1.25)"⟩,
      ⟨"gpt-5.4-mini", "GPT-5.4 Mini ($0.75/$4.50)"⟩, ⟨"gpt-4.1", "GPT-4.1 ($2/$8)"⟩,
      ⟨"gpt-5.1", "GPT-5.1 ($1.25/$10)"⟩, ⟨"gpt-5.4", "GPT-5.4 ($2.50/$15)"⟩] }]

def openAICompatFields : List Field := [
  { key := "base_url", label := "provider.openai_compat.base_url", type := "text",
    placeholder := "http://localhost:11434/v1", required := true,
    hint := "provider.openai_compat.base_url_hint" },
  { key := "api_key", label := "provider.api_key", type := "password",
    hint := "provider.openai_compat.api_key_hint" },
  { key := "model", label := "provider.model", type := "text", placeholder := "llama3.1:8b",
    required := true, hint := "provider.openai_compat.model_hint" }]

def willysFields : List Field := [
  { key := "username", label := "provider.willys.username", type := "text", required := true },
  { key := "password", label := "provider.password", type := "password", required := true }]

def known : List KindInfo := [
  ⟨kindAnthropic, "llm", "provider.anthropic.name", anthropicFields⟩,
  ⟨kindOpenAI, "llm", "provider.openai.name", openAIFields⟩,
  ⟨kindOpenAICompat, "llm", "provider.openai_compat.name", openAICompatFields⟩,
  ⟨kindWillys, "shopping", "Willys", willysFields⟩]

def kindInfoFor (kind : Kind) : Option KindInfo := known.find? fun k => k.kind = kind

/-- The fields of a kind, none for a kind that is not known. -/
def fieldsOf (kind : Kind) : List Field :=
  match kindInfoFor kind with
  | some info => info.fields
  | none => []

def isSecretField (kind : Kind) (key : String) : Bool :=
  match (fieldsOf kind).find? fun f => f.key = key with
  | some f => f.type = "password"
  | none => key ∈ ["api_key", "password", "token", "secret"]

/-! ### Rows -/

inductive Json where
  | null
  | bool (b : Bool)
  | num (x : ℚ)
  | str (s : String)
  | arr (xs : List Json)
  | obj (fields : String → Option Json)

abbrev Config := String → Option Json

/-- A row of the table; the time is the text of the last write's. -/
structure Row where
  kind : Kind
  enabled : Bool
  configJson : Json
  updatedAt : String

/-- The table, which has a row for a kind at most. -/
structure Table where
  rows : List Row
  nodup : (rows.map Row.kind).Nodup

namespace Table

def empty : Table := ⟨[], List.nodup_nil⟩

lemma nodup_put (t : Table) (r : Row) :
    ((t.rows.filter (fun x => x.kind ≠ r.kind) ++ [r]).map Row.kind).Nodup := by
  rw [List.map_append]
  refine List.nodup_append.mpr ⟨t.nodup.sublist (List.filter_sublist.map _),
    List.nodup_singleton _, fun a ha b hb => ?_⟩
  obtain ⟨x, hx, rfl⟩ := List.mem_map.mp ha
  rw [List.mem_singleton.mp hb]
  simpa using (List.mem_filter.mp hx).2

/-- The row takes the place of its kind's. -/
def put (t : Table) (r : Row) : Table :=
  ⟨t.rows.filter (fun x => x.kind ≠ r.kind) ++ [r], nodup_put t r⟩

def find? (t : Table) (kind : Kind) : Option Row := t.rows.find? fun r => r.kind = kind

lemma mem_put {t : Table} {r x : Row} :
    x ∈ (t.put r).rows ↔ x ∈ t.rows ∧ x.kind ≠ r.kind ∨ x = r := by
  simp [put]

@[simp] lemma find?_put (t : Table) (r : Row) : (t.put r).find? r.kind = some r := by
  have h : (t.rows.filter fun x => x.kind ≠ r.kind).find? (fun x => x.kind = r.kind) = none := by
    rw [List.find?_eq_none]
    intro x hx
    simpa using (List.mem_filter.mp hx).2
  rw [find?, put, List.find?_append, h]
  simp

lemma find?_put_of_ne {t : Table} {r : Row} {kind : Kind} (h : kind ≠ r.kind) :
    (t.put r).find? kind = t.find? kind := by
  have hlast : [r].find? (fun x => x.kind = kind) = none := by simp [h.symm]
  rw [find?, put, List.find?_append, hlast, Option.or_none, List.find?_filter]
  refine congrArg (fun f => t.rows.find? f) (funext fun x => ?_)
  by_cases hx : x.kind = kind
  · simp [hx, h]
  · simp [hx]

lemma mem_of_find? {t : Table} {kind : Kind} {r : Row} (h : t.find? kind = some r) :
    r ∈ t.rows ∧ r.kind = kind :=
  ⟨List.mem_of_find?_eq_some h, by simpa using List.find?_some h⟩

end Table

/-- A row as the code reads it. -/
structure Provider where
  kind : Kind
  enabled : Bool
  config : Config
  updatedAt : String

inductive Err where
  | notFound
  | unmarshal
  deriving DecidableEq

/-! ### The store -/

/-- The cipher, when there is a key, and the bytes the process drew for its sentinel. -/
structure Store where
  crypt : Option Aead
  token : Buf 16

def hexDigit (n : ℕ) : Char :=
  ['0', '1', '2', '3', '4', '5', '6', '7', '8', '9', 'a', 'b', 'c', 'd', 'e', 'f'].getD n '0'

def hex (b : Bytes) : String :=
  String.ofList (b.flatMap fun x => [hexDigit (x.toNat / 16), hexDigit (x.toNat % 16)])

def new (aes : Buf 32 → Aead) (masterKey : Bytes) (token : Buf 16) : Except String Store :=
  (newCryptor aes masterKey).map fun crypt => ⟨crypt, token⟩

namespace Store

variable (s : Store)

def sentinel : String := "redacted:" ++ hex s.token.1

/-- Secrets are shown as the sentinel, and as nothing when they are not text. -/
def mask (p : Provider) : Provider where
  kind := p.kind
  enabled := p.enabled
  config key := (p.config key).map fun v =>
    if isSecretField p.kind key then
      match v with
      | .str text => if text ≠ "" then .str s.sentinel else .str ""
      | _ => .str ""
    else v
  updatedAt := p.updatedAt

/-! Reading -/

/-- A text that does not unwrap stays as it is. -/
def decryptField (c : Aead) (config : Config) (f : Field) : Config :=
  if f.type ≠ "password" then config
  else match config f.key with
    | some (.str v) =>
      if isEncrypted v then
        match c.decrypt v with
        | .ok plain => Function.update config f.key (some (.str plain))
        | .error _ => config
      else config
    | _ => config

def decryptSecrets (kind : Kind) (config : Config) : Config :=
  match s.crypt with
  | none => config
  | some c => (fieldsOf kind).foldl (decryptField c) config

/-- `null` leaves the map without keys. -/
def unmarshal : Json → Except Err Config
  | .obj config => .ok config
  | .null => .ok fun _ => none
  | _ => .error .unmarshal

def provider (r : Row) : Except Err Provider :=
  (unmarshal r.configJson).map fun config =>
    ⟨r.kind, r.enabled, s.decryptSecrets r.kind config, r.updatedAt⟩

/-- `collate a b` when the database sorts `a` no later than `b`. -/
def list (collate : Kind → Kind → Bool) (t : Table) : Except Err (List Provider) :=
  (t.rows.mergeSort fun a b => collate a.kind b.kind).mapM s.provider

/-- What `Get` finds in a table. -/
def found (t : Table) (kind : Kind) : Except Err Provider :=
  match t.find? kind with
  | none => .error .notFound
  | some r => s.provider r

end Store

/-- A program of the server. -/
abbrev Op (α : Type) := Proc Table ℕ Buf Err α

namespace Store

variable (s : Store)

def get (kind : Kind) : Op Provider := do
  let p ← Proc.read fun t => s.found t kind
  Proc.ret p

/-! Writing -/

def encryptField (c : Aead) (config : Config) (f : Field) : Op Config :=
  if f.type ≠ "password" then pure config
  else match config f.key with
    | some (.str v) =>
      if v = "" ∨ isEncrypted v then pure config
      else do
        let nonce ← Proc.request nonceSize
        pure (Function.update config f.key (some (.str (c.encrypt nonce v))))
    | _ => pure config

def encryptSecrets (kind : Kind) (config : Config) : Op Config :=
  match s.crypt with
  | none => pure config
  | some c => (fieldsOf kind).foldlM (encryptField c) config

end Store

structure UpsertPatch where
  enabled : Option Bool
  config : Config

namespace Store

variable (s : Store)

/-- The sentinel leaves a key as it is, the empty text takes it away. -/
def merge (config patch : Config) : Config := fun key =>
  match patch key with
  | none => config key
  | some (.str v) =>
    if v = s.sentinel then config key
    else if v = "" then none
    else some (.str v)
  | some v => some v

/-- A row that is not there is one without a config. -/
def current : Except Err Provider → Except Err (Config × Bool)
  | .ok p => .ok (p.config, p.enabled)
  | .error .notFound => .ok (fun _ => none, false)
  | .error e => .error e

/-- The statement that writes the row, at the time `now`. -/
def write (now : String) (kind : Kind) (enabled : Bool) (config : Config) : Op Unit :=
  Proc.modify fun t => t.put ⟨kind, enabled, .obj config, now⟩

def upsert (now : String) (kind : Kind) (patch : UpsertPatch) : Op Provider := do
  let found ← (s.get kind).attempt
  let row ← Proc.ret (current found)
  let config ← s.encryptSecrets kind (s.merge row.1 patch.config)
  write now kind (patch.enabled.getD row.2) config
  s.get kind

/-! ### Accessors -/

/-- The text under a key, empty when there is none. -/
def text (config : Config) (key : String) : String :=
  match config key with
  | some (.str v) => v
  | _ => ""

def anthropicAPIKey (t : Table) : String :=
  match s.found t kindAnthropic with
  | .error _ => ""
  | .ok p => text p.config "api_key"

def anthropicModel (t : Table) : String :=
  match s.found t kindAnthropic with
  | .error _ => defaultAnthropicModel
  | .ok p =>
    if text p.config "model" ≠ "" then text p.config "model" else defaultAnthropicModel

end Store

structure OpenAIConfig where
  baseURL : String
  apiKey : String
  model : String

structure OpenAICompatConfig where
  baseURL : String
  apiKey : String
  model : String

structure WillysCreds where
  username : String
  password : String

namespace Store

variable (s : Store)

/-- Nothing where the code says `false`. -/
def openAIConfig (t : Table) : Option OpenAIConfig :=
  match s.found t kindOpenAI with
  | .error _ => none
  | .ok p =>
    if text p.config "api_key" = "" then none
    else some ⟨openAIBaseURL, text p.config "api_key",
      if text p.config "model" = "" then defaultOpenAIModel else text p.config "model"⟩

def openAICompatConfig (t : Table) : Option OpenAICompatConfig :=
  match s.found t kindOpenAICompat with
  | .error _ => none
  | .ok p =>
    if text p.config "base_url" = "" ∨ text p.config "model" = "" then none
    else some ⟨text p.config "base_url", text p.config "api_key", text p.config "model"⟩

def willysCredentials (t : Table) : Option WillysCreds :=
  match s.found t kindWillys with
  | .error _ => none
  | .ok p =>
    if ¬ p.enabled then none
    else if text p.config "username" = "" ∨ text p.config "password" = "" then none
    else some ⟨text p.config "username", text p.config "password"⟩

end Store

/-! ### The routes -/

/-- A body that does not decode is none. -/
inductive Request where
  | list
  | patch (kind : Kind) (body : Option UpsertPatch)

inductive Answer where
  | providers (known : List KindInfo) (providers : List Provider) (sentinel : String)
  | provider (p : Provider)
  | error (status : ℕ) (text : String)

def internalError : Answer := .error 500 "internal server error"

/-- Every known kind is listed. -/
def withKnown (ps : List Provider) : List Provider :=
  ps ++ (known.filter fun info => info.kind ∉ ps.map Provider.kind).map fun info =>
    ⟨info.kind, false, fun _ => none, ""⟩

namespace Store

variable (s : Store)

def listed : Except Err (List Provider) → Answer
  | .error _ => internalError
  | .ok ps => .providers known ((withKnown ps).map s.mask) s.sentinel

def handleListProviders (collate : Kind → Kind → Bool) : Op Answer := do
  let ps ← Proc.read (s.list collate)
  pure (s.listed ps)

def patched : Except Err Provider → Answer
  | .error .notFound => .error 404 "not found"
  | .error _ => internalError
  | .ok p => .provider (s.mask p)

def handlePatchProvider (now : String) (kind : Kind) (body : Option UpsertPatch) : Op Answer :=
  if (kindInfoFor kind).isNone then pure (.error 400 "unknown provider kind")
  else match body with
    | none => pure (.error 400 "bad json")
    | some patch => do
      let out ← (s.upsert now kind patch).attempt
      pure (s.patched out)

end Store

/-- A request, the time it comes at and the bytes drawn by the process that answers it. -/
structure Visit where
  token : Buf 16
  now : String
  request : Request

variable (crypt : Option Aead) (collate : Kind → Kind → Bool)

def handle (v : Visit) : Op Answer :=
  match v.request with
  | .list => Store.handleListProviders ⟨crypt, v.token⟩ collate
  | .patch kind body => Store.handlePatchProvider ⟨crypt, v.token⟩ v.now kind body

/-- Requests one after another, each with its answer. -/
def serve : List Visit → Op (List Answer)
  | [] => pure []
  | v :: vs => do
    let answer ← handle crypt collate v
    let answers ← serve vs
    pure (answer :: answers)

end Veckomenyn.Providers
